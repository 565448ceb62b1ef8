import Mathlib.Tactic.FinCases
import Callisto.Optimization.ConstraintSolver

/-! When the three solver paths agree. -/

namespace Callisto.Optimization

open Callisto.Library

def Agrees {n : ℕ} (first second : ArbitrageResult n) : Prop :=
  first.arbitrageFound = second.arbitrageFound ∧
    (first.arbitrageFound = true → first.totalCost = second.totalCost ∧ first.profit = second.profit)

instance decidableHolds {n : ℕ} (constraint : Constraint n) (choice : Choice n) : Decidable (constraint.Holds choice) :=
  match same : constraint.relation with
  | .equal => decidable_of_iff (dot constraint.coefficients choice = constraint.bound) (by rw [Constraint.Holds, same])
  | .atLeast => decidable_of_iff (constraint.bound ≤ dot constraint.coefficients choice) (by rw [Constraint.Holds, same])
  | .atMost => decidable_of_iff (dot constraint.coefficients choice ≤ constraint.bound) (by rw [Constraint.Holds, same])

instance decidableFeasible {n : ℕ} (problem : Problem n) (choice : Choice n) : Decidable (problem.Feasible choice) :=
  inferInstanceAs (Decidable (∀ constraint ∈ problem.constraints, constraint.Holds choice))

def Milp.enumerating : Milp where
  solve {n} problem :=
    ⟨cheapest (fun choice => decide (problem.Feasible choice)) (dot problem.costs) ((List.range (2 ^ n)).map (bits n)), "optimal"⟩
  optimum {n} problem := by
    have same : (fun choice => decide (problem.Feasible choice) = true) = problem.Feasible := funext fun _ => propext decide_eq_true_iff
    have covers : ∀ choice : Choice n, decide (problem.Feasible choice) = true → choice ∈ (List.range (2 ^ n)).map (bits n) := by
      intro choice _
      obtain ⟨i, small, made⟩ := bits_surjective choice
      exact List.mem_map.2 ⟨i, List.mem_range.2 small, made⟩
    have found := @cheapest_isOptimum _ _ _ _ (dot problem.costs) _ covers
    rwa [same] at found

theorem resultOf_agrees_iff {n : ℕ} (prices : Fin n → ℚ) (first second : Option (Choice n)) (found missed found' missed' : String) :
    Agrees (resultOf prices first found missed) (resultOf prices second found' missed') ↔
      costBelow threshold (dot prices) first = costBelow threshold (dot prices) second := by
  have shape : ∀ (answer : Option (Choice n)) (hit miss : String),
      (costBelow threshold (dot prices) answer = none ∧ (resultOf prices answer hit miss).arbitrageFound = false) ∨
      ∃ value, costBelow threshold (dot prices) answer = some value ∧ (resultOf prices answer hit miss).arbitrageFound = true ∧
        (resultOf prices answer hit miss).totalCost = value ∧ (resultOf prices answer hit miss).profit = 1 - value := by
    intro answer hit miss
    cases answer with
    | none => exact Or.inl ⟨rfl, rfl⟩
    | some choice =>
      by_cases below : dot prices choice < threshold
      · right
        exact ⟨dot prices choice, by simp [costBelow, Option.filter, below], by simp [resultOf, below], by simp [resultOf, below],
          by simp [resultOf, below]⟩
      · left
        exact ⟨by simp [costBelow, Option.filter, below], by simp [resultOf, below, notFound]⟩
  have one := shape first found missed
  have two := shape second found' missed'
  unfold Agrees
  grind

section
variable {n : ℕ} (milp other : Milp) (prices : Fin n → ℚ) (rows : List (Row n))

theorem scipy_agrees_fallback (small : n ≤ 20) : Agrees (solveScipy milp prices rows) (solveFallback prices rows) := by
  unfold solveScipy solveFallback
  rw [if_neg (not_lt.2 small), resultOf_agrees_iff]
  have exactly := @solveScipy_optimum _ rows milp prices
  have loosely := @solveFallback_optimum _ rows prices
  exact (exactly.costBelow_eq_iff loosely fun _ => id).2 fun _ admitted strictly => absurd admitted strictly

theorem cvxpy_agrees_scipy_iff : Agrees (solveCvxpy milp prices rows) (solveScipy other prices rows) ↔
    ∀ choice, Relaxed rows choice → ¬ Exact rows choice → dot prices choice < threshold →
      ∃ matching, Exact rows matching ∧ dot prices matching ≤ dot prices choice := by
  unfold solveCvxpy solveScipy
  rw [resultOf_agrees_iff]
  exact (solveCvxpy_optimum milp prices).costBelow_eq_iff (solveScipy_optimum other prices) fun _ => Exact.relaxed

end

/-- Over any rows, those of a list of dependencies among them, the paths agree exactly when every cheap choice with a second
outcome in some market, which only the rows as inequalities admit, is matched by a choice
with one outcome per market that is not dearer. -/
theorem solver_paths_agree_iff (nOutcomesA nOutcomesB : ℕ) (small : nOutcomesA + nOutcomesB ≤ 20)
    (prices : Fin (nOutcomesA + nOutcomesB) → ℚ) (rows : List (Row (nOutcomesA + nOutcomesB))) (cvxpy scipy : Milp) :
    (Agrees (solveCvxpy cvxpy prices rows) (solveScipy scipy prices rows) ∧
      Agrees (solveScipy scipy prices rows) (solveFallback prices rows) ∧
      Agrees (solveCvxpy cvxpy prices rows) (solveFallback prices rows)) ↔
    ∀ choice, Relaxed rows choice → ¬ Exact rows choice → dot prices choice < threshold →
      ∃ matching, Exact rows matching ∧ dot prices matching ≤ dot prices choice := by
  have loose := scipy_agrees_fallback scipy prices rows small
  rw [← cvxpy_agrees_scipy_iff cvxpy scipy]
  constructor
  · intro all
    exact all.1
  · intro first
    have last : Agrees (solveCvxpy cvxpy prices rows) (solveFallback prices rows) := by
      unfold Agrees at first loose ⊢
      grind
    exact ⟨first, loose, last⟩

/-- One outcome that implies both outcomes of the other market: nothing is possible, yet two paths see a cover. -/
def impliesBoth : List Dependency := [⟨0, 0, .implies⟩, ⟨0, 1, .implies⟩]

def cheapPrices : Fin (1 + 2) → ℚ := fun i => if i = 0 then 1 / 10 else 1 / 5

theorem solver_paths_disagree :
    ¬ ∀ (nOutcomesA nOutcomesB : ℕ) (prices : Fin (nOutcomesA + nOutcomesB) → ℚ) (dependencies : List Dependency)
      (rows : List (Row (nOutcomesA + nOutcomesB))) (cvxpy scipy : Milp), nOutcomesA + nOutcomesB ≤ 20 → (∀ i, 0 ≤ prices i) →
      buildConstraintsFromDependencies nOutcomesA nOutcomesB dependencies = some rows →
      Agrees (solveCvxpy cvxpy prices rows) (solveScipy scipy prices rows) ∧
        Agrees (solveScipy scipy prices rows) (solveFallback prices rows) ∧
        Agrees (solveCvxpy cvxpy prices rows) (solveFallback prices rows) := by
  intro all
  have built : ∃ rows, buildConstraintsFromDependencies 1 2 impliesBoth = some rows ∧
      (solveCvxpy .enumerating cheapPrices rows).arbitrageFound = false ∧ (solveFallback cheapPrices rows).arbitrageFound = true :=
    ⟨_, rfl, by decide +kernel, by decide +kernel⟩
  obtain ⟨rows, made, missed, found⟩ := built
  have same := (all 1 2 cheapPrices impliesBoth rows .enumerating .enumerating (by decide) (by decide +kernel) made).2.2.1
  rw [missed, found] at same
  exact absurd same (by decide)

/-- Without the second implication the paths agree. -/
theorem solver_paths_agree_single : ∃ rows, buildConstraintsFromDependencies 1 2 [⟨0, 0, .implies⟩] = some rows ∧
    Agrees (solveCvxpy .enumerating cheapPrices rows) (solveScipy .enumerating cheapPrices rows) ∧
    Agrees (solveCvxpy .enumerating cheapPrices rows) (solveFallback cheapPrices rows) := by
  refine ⟨_, rfl, ?_⟩
  refine (fun agree => ⟨agree.1, agree.2.2⟩) ((solver_paths_agree_iff 1 2 (by decide) cheapPrices _ .enumerating .enumerating).2 ?_)
  simp only [Exact, Relaxed]
  decide +kernel

end Callisto.Optimization
