import Mathlib.Algebra.BigOperators.Fin
import Mathlib.Algebra.Order.Field.Rat
import Mathlib.Algebra.Order.Ring.Rat
import Mathlib.Data.Fin.Tuple.Basic
import Mathlib.Data.Fintype.Pi
import Mathlib.Data.Nat.Bitwise
import Callisto.Library.Optimum

/-! Arbitrage detection across two dependent markets as an integer program, with its three solver paths. -/

namespace Callisto.Optimization

open Callisto.Library

inductive DependencyType where
  | implies
  | excludes
  | cumulative
  deriving DecidableEq

structure Dependency where
  outcomeAIdx : ℤ
  outcomeBIdx : ℤ
  depType : DependencyType

/-- A row of `A z ≥ b` with its equality flag. -/
structure Row (n : ℕ) where
  coefficients : Fin n → ℚ
  bound : ℚ
  isEquality : Bool

abbrev Choice (n : ℕ) := Fin n → Bool

def dot {n : ℕ} (coefficients : Fin n → ℚ) (choice : Choice n) : ℚ := ∑ i, if choice i then coefficients i else 0

/-- An index into an array of length `n`; a negative one counts from the end, another one raises. -/
def arrayIndex (n : ℕ) (index : ℤ) : Option (Fin n) :=
  if front : 0 ≤ index ∧ index < n then some ⟨index.toNat, by omega⟩
  else if back : -n ≤ index ∧ index < 0 then some ⟨(index + n).toNat, by omega⟩
  else none

/-- The row of a dependency, whose second assignment wins where both indices name one variable. -/
def dependencyRow (nOutcomesA nOutcomesB : ℕ) (dep : Dependency) : Option (Row (nOutcomesA + nOutcomesB)) := do
  let idxA ← arrayIndex (nOutcomesA + nOutcomesB) dep.outcomeAIdx
  let idxB ← arrayIndex (nOutcomesA + nOutcomesB) (nOutcomesA + dep.outcomeBIdx)
  match dep.depType with
  | .implies => some ⟨Function.update (Function.update 0 idxA (-1)) idxB 1, 0, false⟩
  | .excludes => some ⟨Function.update (Function.update 0 idxA (-1)) idxB (-1), -1, false⟩
  | .cumulative => some ⟨Function.update (Function.update 0 idxA (-1)) idxB 1, 0, false⟩

def rowA (nOutcomesA nOutcomesB : ℕ) : Row (nOutcomesA + nOutcomesB) := ⟨fun i => if i < nOutcomesA then 1 else 0, 1, true⟩

def rowB (nOutcomesA nOutcomesB : ℕ) : Row (nOutcomesA + nOutcomesB) := ⟨fun i => if nOutcomesA ≤ i then 1 else 0, 1, true⟩

def buildConstraintsFromDependencies (nOutcomesA nOutcomesB : ℕ) (dependencies : List Dependency) :
    Option (List (Row (nOutcomesA + nOutcomesB))) := do
  let rows ← dependencies.mapM (dependencyRow nOutcomesA nOutcomesB)
  some (rowA nOutcomesA nOutcomesB :: rowB nOutcomesA nOutcomesB :: rows)

inductive Relation where
  | equal
  | atLeast
  | atMost
  deriving DecidableEq

structure Constraint (n : ℕ) where
  coefficients : Fin n → ℚ
  relation : Relation
  bound : ℚ

/-- A problem over binary variables as it is handed to an external solver. -/
structure Problem (n : ℕ) where
  costs : Fin n → ℚ
  constraints : List (Constraint n)

def Constraint.Holds {n : ℕ} (constraint : Constraint n) (choice : Choice n) : Prop :=
  match constraint.relation with
  | .equal => dot constraint.coefficients choice = constraint.bound
  | .atLeast => constraint.bound ≤ dot constraint.coefficients choice
  | .atMost => dot constraint.coefficients choice ≤ constraint.bound

def Problem.Feasible {n : ℕ} (problem : Problem n) (choice : Choice n) : Prop :=
  ∀ constraint ∈ problem.constraints, constraint.Holds choice

/-- What an external solver answers: a choice, unless the problem has none, and a status text. -/
structure Answer (n : ℕ) where
  choice : Option (Choice n)
  message : String

/-- An external solver of mixed integer programs that always returns a true optimum. -/
structure Milp where
  solve : {n : ℕ} → Problem n → Answer n
  optimum : ∀ {n : ℕ} (problem : Problem n), IsOptimum problem.Feasible (dot problem.costs) (solve problem).choice

inductive Action where
  | buy
  deriving DecidableEq

structure Position (n : ℕ) where
  index : Fin n
  action : Action
  price : ℚ

structure ArbitrageResult (n : ℕ) where
  arbitrageFound : Bool
  profit : ℚ
  optimalOutcome : Option (Choice n)
  totalCost : ℚ
  positions : List (Position n)
  solverStatus : String

/-- Below this cost a coverage counts as an arbitrage: a dollar less the tolerance. -/
def threshold : ℚ := 1 - 1 / 1000000

section
variable {n : ℕ}

def buildPositions (choice : Choice n) (prices : Fin n → ℚ) : List (Position n) :=
  ((List.finRange n).filter fun i => choice i).map fun i => ⟨i, .buy, prices i⟩

def notFound (prices : Fin n → ℚ) (solverStatus : String) : ArbitrageResult n :=
  ⟨false, 0, none, ∑ i, prices i, [], solverStatus⟩

/-- The result for the optimum that a path has come to, with the status texts for a find and for none. -/
def resultOf (prices : Fin n → ℚ) (optimum : Option (Choice n)) (found missed : String) : ArbitrageResult n :=
  match optimum with
  | none => notFound prices missed
  | some choice =>
    let value := dot prices choice
    if value < threshold then ⟨true, 1 - value, some choice, value, buildPositions choice prices, found⟩ else notFound prices missed

def cvxpyProblem (prices : Fin n → ℚ) (rows : List (Row n)) : Problem n :=
  ⟨prices, rows.map fun row => ⟨row.coefficients, if row.isEquality then .equal else .atLeast, row.bound⟩⟩

def scipyProblem (prices : Fin n → ℚ) (rows : List (Row n)) : Problem n :=
  ⟨prices, rows.map fun row => ⟨-row.coefficients, .atMost, -row.bound⟩⟩

def solveCvxpy (milp : Milp) (prices : Fin n → ℚ) (rows : List (Row n)) : ArbitrageResult n :=
  let answer := milp.solve (cvxpyProblem prices rows)
  resultOf prices answer.choice answer.message answer.message

def solveScipy (milp : Milp) (prices : Fin n → ℚ) (rows : List (Row n)) : ArbitrageResult n :=
  let answer := milp.solve (scipyProblem prices rows)
  resultOf prices answer.choice "optimal" answer.message

def bits (n i : ℕ) : Choice n := fun j => i.testBit j

def meetsRows (rows : List (Row n)) (choice : Choice n) : Bool := rows.all fun row => decide (row.bound ≤ dot row.coefficients choice)

def solveFallback (prices : Fin n → ℚ) (rows : List (Row n)) : ArbitrageResult n :=
  if 20 < n then notFound prices "fallback: problem too large"
  else
    resultOf prices (cheapest (meetsRows rows) (dot prices) ((List.range (2 ^ n)).map (bits n)))
      "fallback: enumeration" "fallback: no arbitrage found"

end

inductive SolverName where
  | cvxpy
  | scipy
  | fallback
  deriving DecidableEq

/-- The solver asked for, and the external ones that could be imported. -/
structure ConstraintSolver where
  solver : SolverName
  cvxpy : Option Milp
  scipy : Option Milp

def ConstraintSolver.auto (cvxpy scipy : Option Milp) : ConstraintSolver :=
  ⟨if cvxpy.isSome then .cvxpy else if scipy.isSome then .scipy else .fallback, cvxpy, scipy⟩

def ConstraintSolver.detectArbitrage {n : ℕ} (self : ConstraintSolver) (prices : Fin n → ℚ) (rows : List (Row n)) : ArbitrageResult n :=
  match self.solver, self.cvxpy, self.scipy with
  | .cvxpy, some milp, _ => solveCvxpy milp prices rows
  | .scipy, _, some milp => solveScipy milp prices rows
  | _, _, _ => solveFallback prices rows

def ConstraintSolver.detectCrossMarketArbitrage {nA nB : ℕ} (self : ConstraintSolver) (pricesA : Fin nA → ℚ) (pricesB : Fin nB → ℚ)
    (dependencies : List Dependency) : Option (ArbitrageResult (nA + nB)) := do
  let rows ← buildConstraintsFromDependencies nA nB dependencies
  some (self.detectArbitrage (Fin.append pricesA pricesB) rows)

def Exact {n : ℕ} (rows : List (Row n)) (choice : Choice n) : Prop :=
  ∀ row ∈ rows, if row.isEquality then dot row.coefficients choice = row.bound else row.bound ≤ dot row.coefficients choice

def Relaxed {n : ℕ} (rows : List (Row n)) (choice : Choice n) : Prop := ∀ row ∈ rows, row.bound ≤ dot row.coefficients choice

section
variable {n : ℕ} {rows : List (Row n)} {choice : Choice n}

theorem Exact.relaxed (strictly : Exact rows choice) : Relaxed rows choice := by
  intro row member
  have held := strictly row member
  by_cases equality : row.isEquality = true
  · rw [if_pos equality] at held
    exact held.ge
  · rwa [if_neg equality] at held

theorem dot_neg (coefficients : Fin n → ℚ) (choice : Choice n) : dot (-coefficients) choice = -dot coefficients choice := by
  unfold dot
  rw [← Finset.sum_neg_distrib]
  apply Finset.sum_congr rfl
  intro i _
  by_cases chosen : choice i = true
  · rw [if_pos chosen, if_pos chosen, Pi.neg_apply]
  · rw [if_neg chosen, if_neg chosen, neg_zero]

theorem cvxpyProblem_feasible (prices : Fin n → ℚ) : (cvxpyProblem prices rows).Feasible choice ↔ Exact rows choice := by
  simp only [Problem.Feasible, cvxpyProblem, Exact, List.forall_mem_map]
  apply forall_congr'
  intro row
  by_cases equality : row.isEquality = true
  · simp only [Constraint.Holds, if_pos equality]
  · simp only [Constraint.Holds, if_neg equality]

theorem scipyProblem_feasible (prices : Fin n → ℚ) : (scipyProblem prices rows).Feasible choice ↔ Relaxed rows choice := by
  simp only [Problem.Feasible, scipyProblem, Relaxed, List.forall_mem_map, Constraint.Holds, dot_neg, neg_le_neg_iff]

theorem meetsRows_iff : meetsRows rows choice = true ↔ Relaxed rows choice := by
  simp only [meetsRows, Relaxed, List.all_eq_true, decide_eq_true_eq]

theorem bits_surjective (choice : Choice n) : ∃ i, i < 2 ^ n ∧ bits n i = choice := by
  refine ⟨Nat.ofBits choice, Nat.ofBits_lt_two_pow choice, ?_⟩
  funext j
  exact Nat.testBit_ofBits_lt choice j j.2

theorem solveCvxpy_optimum (milp : Milp) (prices : Fin n → ℚ) :
    IsOptimum (Exact rows) (dot prices) (milp.solve (cvxpyProblem prices rows)).choice := by
  have optimum := milp.optimum (cvxpyProblem prices rows)
  have same : (cvxpyProblem prices rows).Feasible = Exact rows := funext fun _ => propext (cvxpyProblem_feasible prices)
  rwa [same] at optimum

theorem solveScipy_optimum (milp : Milp) (prices : Fin n → ℚ) :
    IsOptimum (Relaxed rows) (dot prices) (milp.solve (scipyProblem prices rows)).choice := by
  have optimum := milp.optimum (scipyProblem prices rows)
  have same : (scipyProblem prices rows).Feasible = Relaxed rows := funext fun _ => propext (scipyProblem_feasible prices)
  rwa [same] at optimum

theorem solveFallback_optimum (prices : Fin n → ℚ) :
    IsOptimum (Relaxed rows) (dot prices) (cheapest (meetsRows rows) (dot prices) ((List.range (2 ^ n)).map (bits n))) := by
  have same : (fun choice => meetsRows rows choice = true) = Relaxed rows := funext fun _ => propext meetsRows_iff
  rw [← same]
  apply cheapest_isOptimum
  intro choice _
  obtain ⟨i, small, made⟩ := bits_surjective choice
  exact List.mem_map.2 ⟨i, List.mem_range.2 small, made⟩

end

end Callisto.Optimization
