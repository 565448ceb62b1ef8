import Mathlib.Algebra.Order.BigOperators.Group.Finset
import Mathlib.Tactic.NormNum
import Callisto.Optimization.SolverPaths

/-! What the positions of a reported arbitrage pay. -/

namespace Callisto.Optimization

open Callisto.Library

def Dependency.Valid (nA nB : ℕ) (dep : Dependency) : Prop :=
  (0 ≤ dep.outcomeAIdx ∧ dep.outcomeAIdx < nA) ∧ 0 ≤ dep.outcomeBIdx ∧ dep.outcomeBIdx < nB

section
variable {nA nB : ℕ}

def Allowed (dependencies : List Dependency) (a : Fin nA) (b : Fin nB) : Prop :=
  ∀ dep ∈ dependencies,
    match dep.depType with
    | .implies | .cumulative => (a : ℤ) = dep.outcomeAIdx → (b : ℤ) = dep.outcomeBIdx
    | .excludes => ¬ ((a : ℤ) = dep.outcomeAIdx ∧ (b : ℤ) = dep.outcomeBIdx)

/-- What one share of every position pays when these outcomes come true. -/
def payoff (positions : List (Position (nA + nB))) (a : Fin nA) (b : Fin nB) : ℚ :=
  (positions.filter fun position => position.index = Fin.castAdd nB a ∨ position.index = Fin.natAdd nA b).length

/-- Whatever joint outcome the dependencies allow, the positions pay what they cost and the profit. -/
def Guaranteed (dependencies : List Dependency) (result : ArbitrageResult (nA + nB)) : Prop :=
  result.arbitrageFound = true → ∀ (a : Fin nA) (b : Fin nB), Allowed dependencies a b →
    result.totalCost + result.profit ≤ payoff result.positions a b

/-- Some outcomes of each market are chosen, and all dependencies hold of them as implications and exclusions. -/
def Loose (dependencies : List Dependency) (choice : Choice (nA + nB)) : Prop :=
  (∃ a, choice (Fin.castAdd nB a) = true) ∧ (∃ b, choice (Fin.natAdd nA b) = true) ∧
    ∀ dep ∈ dependencies, ∀ (a : Fin nA) (b : Fin nB), (a : ℤ) = dep.outcomeAIdx → (b : ℤ) = dep.outcomeBIdx →
      match dep.depType with
      | .implies | .cumulative => choice (Fin.castAdd nB a) = true → choice (Fin.natAdd nA b) = true
      | .excludes => ¬ (choice (Fin.castAdd nB a) = true ∧ choice (Fin.natAdd nA b) = true)

def single (a : Fin nA) (b : Fin nB) : Choice (nA + nB) := Fin.append (fun i => decide (i = a)) (fun j => decide (j = b))

theorem dot_append (coefficients : Fin (nA + nB) → ℚ) (choice : Choice (nA + nB)) :
    dot coefficients choice = (∑ a : Fin nA, if choice (Fin.castAdd nB a) then coefficients (Fin.castAdd nB a) else 0) +
      ∑ b : Fin nB, if choice (Fin.natAdd nA b) then coefficients (Fin.natAdd nA b) else 0 := Fin.sum_univ_add _

theorem dot_rowA (choice : Choice (nA + nB)) :
    dot (rowA nA nB).coefficients choice = (Finset.univ.filter fun a : Fin nA => choice (Fin.castAdd nB a) = true).card := by
  rw [dot_append]
  simp [rowA]

theorem dot_rowB (choice : Choice (nA + nB)) :
    dot (rowB nA nB).coefficients choice = (Finset.univ.filter fun b : Fin nB => choice (Fin.natAdd nA b) = true).card := by
  rw [dot_append]
  simp [rowB, Finset.sum_ite]

theorem dot_update {n : ℕ} (i j : Fin n) (differ : i ≠ j) (x y : ℚ) (choice : Choice n) :
    dot (Function.update (Function.update 0 i x) j y) choice = (if choice i then x else 0) + if choice j then y else 0 := by
  have split : ∀ k, (if choice k then Function.update (Function.update (0 : Fin n → ℚ) i x) j y k else 0) =
      (if k = i then (if choice i then x else 0) else 0) + if k = j then (if choice j then y else 0) else 0 := by
    intro k
    by_cases first : k = i
    · subst first
      simp [differ]
    · by_cases second : k = j
      · subst second
        simp [first]
      · simp [first, second]
  unfold dot
  simp only [split, Finset.sum_add_distrib, Finset.sum_ite_eq', Finset.mem_univ, if_true]

theorem arrayIndex_of_lt {n : ℕ} (i : Fin n) : arrayIndex n i = some i := by
  have inside : 0 ≤ (i : ℤ) ∧ (i : ℤ) < n := by omega
  simp [arrayIndex, inside]

def pairRow (a : Fin nA) (b : Fin nB) (depType : DependencyType) : Row (nA + nB) :=
  match depType with
  | .implies | .cumulative => ⟨Function.update (Function.update 0 (Fin.castAdd nB a) (-1)) (Fin.natAdd nA b) 1, 0, false⟩
  | .excludes => ⟨Function.update (Function.update 0 (Fin.castAdd nB a) (-1)) (Fin.natAdd nA b) (-1), -1, false⟩

theorem dependencyRow_eq {dep : Dependency} {a : Fin nA} {b : Fin nB} (isA : (a : ℤ) = dep.outcomeAIdx)
    (isB : (b : ℤ) = dep.outcomeBIdx) : dependencyRow nA nB dep = some (pairRow a b dep.depType) := by
  have first : arrayIndex (nA + nB) dep.outcomeAIdx = some (Fin.castAdd nB a) := by
    have found := arrayIndex_of_lt (Fin.castAdd nB a)
    rwa [Fin.val_castAdd, isA] at found
  have second : arrayIndex (nA + nB) (nA + dep.outcomeBIdx) = some (Fin.natAdd nA b) := by
    have found := arrayIndex_of_lt (Fin.natAdd nA b)
    rwa [Fin.val_natAdd, Nat.cast_add, isB] at found
  cases kind : dep.depType <;> simp [dependencyRow, first, second, kind, pairRow]

theorem pairRow_atLeast_iff (a : Fin nA) (b : Fin nB) (depType : DependencyType) (choice : Choice (nA + nB)) :
    (pairRow a b depType).bound ≤ dot (pairRow a b depType).coefficients choice ↔
      match depType with
      | .implies | .cumulative => choice (Fin.castAdd nB a) = true → choice (Fin.natAdd nA b) = true
      | .excludes => ¬ (choice (Fin.castAdd nB a) = true ∧ choice (Fin.natAdd nA b) = true) := by
  have differ : Fin.castAdd nB a ≠ Fin.natAdd nA b := by
    intro same
    have values := congrArg Fin.val same
    rw [Fin.val_castAdd, Fin.val_natAdd] at values
    omega
  cases depType <;> simp only [pairRow, dot_update _ _ differ] <;>
    cases choice (Fin.castAdd nB a) <;> cases choice (Fin.natAdd nA b) <;> norm_num

theorem Dependency.Valid.pair {dep : Dependency} (valid : dep.Valid nA nB) :
    ∃ (a : Fin nA) (b : Fin nB), (a : ℤ) = dep.outcomeAIdx ∧ (b : ℤ) = dep.outcomeBIdx := by
  obtain ⟨⟨lowA, highA⟩, lowB, highB⟩ := valid
  exact ⟨⟨dep.outcomeAIdx.toNat, by omega⟩, ⟨dep.outcomeBIdx.toNat, by omega⟩, by simp; omega, by simp; omega⟩

theorem build_of_valid {dependencies : List Dependency} (valid : ∀ dep ∈ dependencies, dep.Valid nA nB) :
    ∃ rows, dependencies.mapM (dependencyRow nA nB) = some rows ∧
      ∀ row, row ∈ rows ↔ ∃ dep ∈ dependencies, ∃ (a : Fin nA) (b : Fin nB), (a : ℤ) = dep.outcomeAIdx ∧ (b : ℤ) = dep.outcomeBIdx ∧
        row = pairRow a b dep.depType := by
  induction dependencies with
  | nil => exact ⟨[], rfl, by simp⟩
  | cons dep rest ih =>
    obtain ⟨rows, built, shape⟩ := ih fun other member => valid other (List.mem_cons_of_mem _ member)
    obtain ⟨a, b, isA, isB⟩ := (valid dep List.mem_cons_self).pair
    refine ⟨pairRow a b dep.depType :: rows, by simp [dependencyRow_eq isA isB, built], fun row => ?_⟩
    have unique : (∃ (a' : Fin nA) (b' : Fin nB), (a' : ℤ) = dep.outcomeAIdx ∧ (b' : ℤ) = dep.outcomeBIdx ∧
        row = pairRow a' b' dep.depType) ↔ row = pairRow a b dep.depType := by
      constructor
      · rintro ⟨a', b', isA', isB', same⟩
        have sameA : a' = a := by omega
        have sameB : b' = b := by omega
        rw [same, sameA, sameB]
      · intro same
        exact ⟨a, b, isA, isB, same⟩
    rw [List.mem_cons, shape]
    simp only [List.mem_cons, exists_eq_or_imp, unique]

theorem single_castAdd (a i : Fin nA) (b : Fin nB) : single a b (Fin.castAdd nB i) = decide (i = a) := Fin.append_left _ _ _

theorem single_natAdd (a : Fin nA) (b j : Fin nB) : single a b (Fin.natAdd nA j) = decide (j = b) := Fin.append_right _ _ _

theorem allowed_iff_single {dependencies : List Dependency} (a : Fin nA) (b : Fin nB) (valid : ∀ dep ∈ dependencies, dep.Valid nA nB) :
    Allowed dependencies a b ↔ Loose dependencies (single a b) := by
  have dependent : Allowed dependencies a b ↔ ∀ dep ∈ dependencies, ∀ (i : Fin nA) (j : Fin nB), (i : ℤ) = dep.outcomeAIdx →
      (j : ℤ) = dep.outcomeBIdx →
      match dep.depType with
      | .implies | .cumulative => single a b (Fin.castAdd nB i) = true → single a b (Fin.natAdd nA j) = true
      | .excludes => ¬ (single a b (Fin.castAdd nB i) = true ∧ single a b (Fin.natAdd nA j) = true) := by
    simp only [single_castAdd, single_natAdd, decide_eq_true_eq]
    apply forall_congr'
    intro dep
    apply forall_congr'
    intro member
    obtain ⟨i, j, isA, isB⟩ := (valid dep member).pair
    have sameA : ∀ k : Fin nA, (k : ℤ) = dep.outcomeAIdx ↔ k = i := fun k => by omega
    have sameB : ∀ k : Fin nB, (k : ℤ) = dep.outcomeBIdx ↔ k = j := fun k => by omega
    simp only [sameA, sameB]
    cases dep.depType <;> grind
  rw [dependent]
  constructor
  · intro held
    exact ⟨⟨a, by simp [single_castAdd]⟩, ⟨b, by simp [single_natAdd]⟩, held⟩
  · intro loose
    exact loose.2.2

section
variable {dependencies : List Dependency} (valid : ∀ dep ∈ dependencies, dep.Valid nA nB)
include valid

/-- The built rows with their flags are the joint outcomes that are allowed, and the rows as inequalities the loose choices. -/
theorem build_spec : ∃ rows, buildConstraintsFromDependencies nA nB dependencies = some rows ∧
    (∀ choice, Relaxed rows choice ↔ Loose dependencies choice) ∧
    ∀ choice, Exact rows choice ↔ ∃ a b, choice = single a b ∧ Allowed dependencies a b := by
  obtain ⟨rows, built, shape⟩ := build_of_valid valid
  have each : ∀ choice : Choice (nA + nB), (∀ row ∈ rows, row.bound ≤ dot row.coefficients choice) ↔
      ∀ dep ∈ dependencies, ∀ (a : Fin nA) (b : Fin nB), (a : ℤ) = dep.outcomeAIdx → (b : ℤ) = dep.outcomeBIdx →
        match dep.depType with
        | .implies | .cumulative => choice (Fin.castAdd nB a) = true → choice (Fin.natAdd nA b) = true
        | .excludes => ¬ (choice (Fin.castAdd nB a) = true ∧ choice (Fin.natAdd nA b) = true) := by
    intro choice
    constructor
    · intro held dep member a b isA isB
      exact (pairRow_atLeast_iff a b dep.depType choice).1 (held _ ((shape _).2 ⟨dep, member, a, b, isA, isB, rfl⟩))
    · intro held row member
      obtain ⟨dep, among, a, b, isA, isB, rfl⟩ := (shape row).1 member
      exact (pairRow_atLeast_iff a b dep.depType choice).2 (held dep among a b isA isB)
  have unflagged : ∀ row ∈ rows, row.isEquality = false := by
    intro row member
    obtain ⟨dep, -, a, b, -, -, rfl⟩ := (shape row).1 member
    cases kind : dep.depType <;> rfl
  have loose : ∀ choice, Relaxed (rowA nA nB :: rowB nA nB :: rows) choice ↔ Loose dependencies choice := by
    intro choice
    have first : (rowA nA nB).bound ≤ dot (rowA nA nB).coefficients choice ↔ ∃ a, choice (Fin.castAdd nB a) = true := by
      rw [dot_rowA]
      simp [rowA, Finset.one_le_card, Finset.filter_nonempty_iff]
    have second : (rowB nA nB).bound ≤ dot (rowB nA nB).coefficients choice ↔ ∃ b, choice (Fin.natAdd nA b) = true := by
      rw [dot_rowB]
      simp [rowB, Finset.one_le_card, Finset.filter_nonempty_iff]
    simp only [Relaxed, List.forall_mem_cons, first, second, each, Loose]
  refine ⟨_, by simp [buildConstraintsFromDependencies, built], loose, fun choice => ?_⟩
  have exactly : Exact (rowA nA nB :: rowB nA nB :: rows) choice ↔
      (Finset.univ.filter fun a : Fin nA => choice (Fin.castAdd nB a) = true).card = 1 ∧
      (Finset.univ.filter fun b : Fin nB => choice (Fin.natAdd nA b) = true).card = 1 ∧ ∀ row ∈ rows, row.bound ≤ dot row.coefficients choice := by
    have plain : (∀ row ∈ rows, if row.isEquality then dot row.coefficients choice = row.bound else row.bound ≤ dot row.coefficients choice) ↔
        ∀ row ∈ rows, row.bound ≤ dot row.coefficients choice := by
      apply forall₂_congr
      intro row member
      simp [unflagged row member]
    have first : (if (rowA nA nB).isEquality then dot (rowA nA nB).coefficients choice = (rowA nA nB).bound
        else (rowA nA nB).bound ≤ dot (rowA nA nB).coefficients choice) ↔
        (Finset.univ.filter fun a : Fin nA => choice (Fin.castAdd nB a) = true).card = 1 := by
      have flag : (rowA nA nB).isEquality = true := rfl
      rw [if_pos flag, dot_rowA]
      exact Nat.cast_eq_one
    have second : (if (rowB nA nB).isEquality then dot (rowB nA nB).coefficients choice = (rowB nA nB).bound
        else (rowB nA nB).bound ≤ dot (rowB nA nB).coefficients choice) ↔
        (Finset.univ.filter fun b : Fin nB => choice (Fin.natAdd nA b) = true).card = 1 := by
      have flag : (rowB nA nB).isEquality = true := rfl
      rw [if_pos flag, dot_rowB]
      exact Nat.cast_eq_one
    simp only [Exact, List.forall_mem_cons, plain, first, second]
  rw [exactly, each]
  constructor
  · rintro ⟨one, other, held⟩
    obtain ⟨a, onlyA⟩ := Finset.card_eq_one.1 one
    obtain ⟨b, onlyB⟩ := Finset.card_eq_one.1 other
    have same : choice = single a b := by
      funext k
      induction k using Fin.addCases with
      | left i =>
        have chosen := Finset.ext_iff.1 onlyA i
        rw [single_castAdd, Bool.eq_iff_iff, decide_eq_true_eq]
        simpa using chosen
      | right j =>
        have chosen := Finset.ext_iff.1 onlyB j
        rw [single_natAdd, Bool.eq_iff_iff, decide_eq_true_eq]
        simpa using chosen
    subst same
    exact ⟨a, b, rfl, (allowed_iff_single a b valid).2 ⟨⟨a, by simp [single_castAdd]⟩, ⟨b, by simp [single_natAdd]⟩, held⟩⟩
  · rintro ⟨a, b, rfl, allowed⟩
    have loosely := (allowed_iff_single a b valid).1 allowed
    simp only [single_castAdd, single_natAdd, decide_eq_true_eq, Finset.filter_eq', Finset.mem_univ, if_true, Finset.card_singleton, true_and]
    simpa only [single_castAdd, single_natAdd, decide_eq_true_eq] using loosely.2.2

end

theorem one_le_payoff_iff (choice : Choice (nA + nB)) (prices : Fin (nA + nB) → ℚ) (a : Fin nA) (b : Fin nB) :
    1 ≤ payoff (buildPositions choice prices) a b ↔ choice (Fin.castAdd nB a) = true ∨ choice (Fin.natAdd nA b) = true := by
  have some_paying : 1 ≤ payoff (buildPositions choice prices) a b ↔
      ∃ position ∈ buildPositions choice prices, position.index = Fin.castAdd nB a ∨ position.index = Fin.natAdd nA b := by
    unfold payoff
    rw [Nat.one_le_cast, Nat.one_le_iff_ne_zero, Ne, List.length_eq_zero_iff, List.filter_eq_nil_iff]
    simp only [decide_eq_true_eq, not_forall, not_not, exists_prop]
  rw [some_paying]
  simp only [buildPositions, List.mem_map, List.mem_filter, List.mem_finRange, true_and]
  constructor
  · rintro ⟨_, ⟨i, chosen, rfl⟩, same | same⟩
    · exact Or.inl (same ▸ chosen)
    · exact Or.inr (same ▸ chosen)
  · intro either
    obtain chosen | chosen := either
    · exact ⟨_, ⟨_, chosen, rfl⟩, Or.inl rfl⟩
    · exact ⟨_, ⟨_, chosen, rfl⟩, Or.inr rfl⟩

theorem guaranteed_resultOf_iff (dependencies : List Dependency) (prices : Fin (nA + nB) → ℚ) (answer : Option (Choice (nA + nB)))
    (found missed : String) : Guaranteed dependencies (resultOf prices answer found missed) ↔
      ∀ choice, answer = some choice → dot prices choice < threshold → ∀ a b, Allowed dependencies a b →
        choice (Fin.castAdd nB a) = true ∨ choice (Fin.natAdd nA b) = true := by
  cases answer with
  | none => simp [Guaranteed, resultOf, notFound]
  | some choice =>
    by_cases below : dot prices choice < threshold
    · simp [Guaranteed, resultOf, below, one_le_payoff_iff]
    · simp [Guaranteed, resultOf, below, notFound]

def Sound (pricesA : Fin nA → ℚ) (pricesB : Fin nB → ℚ) (dependencies : List Dependency) : Prop :=
  ∀ (self : ConstraintSolver) (result : ArbitrageResult (nA + nB)),
    self.detectCrossMarketArbitrage pricesA pricesB dependencies = some result → Guaranteed dependencies result

def CheapestBelow (kind : Choice (nA + nB) → Prop) (prices : Fin (nA + nB) → ℚ) (choice : Choice (nA + nB)) : Prop :=
  kind choice ∧ dot prices choice < threshold ∧ ∀ other, kind other → dot prices choice ≤ dot prices other

/-- The choice contains one of the two outcomes of every joint outcome that is allowed. -/
def Touches (dependencies : List Dependency) (choice : Choice (nA + nB)) : Prop :=
  ∀ a b, Allowed dependencies a b → choice (Fin.castAdd nB a) = true ∨ choice (Fin.natAdd nA b) = true

end

/-- A solver that gives this optimum to this problem. -/
noncomputable def Milp.answering {n : ℕ} (problem : Problem n) (choice : Choice n)
    (best : IsOptimum problem.Feasible (dot problem.costs) (some choice)) : Milp := by
  classical
  exact {
    solve := fun {m} other =>
      if same : ∃ size : n = m, size ▸ problem = other then ⟨some (same.choose ▸ choice), "optimal"⟩ else enumerating.solve other
    optimum := by
      intro m other
      by_cases same : ∃ size : n = m, size ▸ problem = other
      · obtain ⟨rfl, rfl⟩ := same
        simpa using best
      · simp only [dif_neg same]
        exact enumerating.optimum other }

theorem Milp.answering_choice {n : ℕ} (problem : Problem n) (choice : Choice n)
    (best : IsOptimum problem.Feasible (dot problem.costs) (some choice)) :
    ((answering problem choice best).solve problem).choice = some choice := by
  have same : ∃ size : n = n, size ▸ problem = problem := ⟨rfl, rfl⟩
  unfold answering
  simp only [exists_prop, and_self, dite_true]

section
variable {nA nB : ℕ} (pricesA : Fin nA → ℚ) (pricesB : Fin nB → ℚ) {dependencies : List Dependency}

/-- What the paths report is guaranteed exactly when every cheapest allowed joint outcome below the threshold, and
every cheapest loose choice below it, contains an outcome of each joint outcome that is allowed. -/
theorem reported_guaranteed_iff (valid : ∀ dep ∈ dependencies, dep.Valid nA nB) :
    Sound pricesA pricesB dependencies ↔
      (∀ a b, Allowed dependencies a b → pricesA a + pricesB b < threshold →
        (∀ a' b', Allowed dependencies a' b' → pricesA a + pricesB b ≤ pricesA a' + pricesB b') →
        ∀ a' b', Allowed dependencies a' b' → a' = a ∨ b' = b) ∧
      ∀ choice, CheapestBelow (Loose dependencies) (Fin.append pricesA pricesB) choice → Touches dependencies choice := by
  obtain ⟨rows, built, loosely, exactly⟩ := build_spec valid
  have cost : ∀ (a : Fin nA) (b : Fin nB), dot (Fin.append pricesA pricesB) (single a b) = pricesA a + pricesB b := by
    intro a b
    rw [dot_append]
    simp [single_castAdd, single_natAdd]
  have path : ∀ self : ConstraintSolver, self.detectCrossMarketArbitrage pricesA pricesB dependencies =
      some (self.detectArbitrage (Fin.append pricesA pricesB) rows) := by
    intro self
    rw [ConstraintSolver.detectCrossMarketArbitrage, built]
    rfl
  constructor
  · intro sound
    constructor
    · intro a b allowed below least a' b' allowed'
      have best : IsOptimum (cvxpyProblem (Fin.append pricesA pricesB) rows).Feasible (dot (Fin.append pricesA pricesB)) (some (single a b)) := by
        constructor
        · exact (cvxpyProblem_feasible _).2 ((exactly _).2 ⟨a, b, rfl, allowed⟩)
        · intro other feasible
          obtain ⟨a'', b'', rfl, admitted⟩ := (exactly other).1 ((cvxpyProblem_feasible _).1 feasible)
          rw [cost, cost]
          exact least a'' b'' admitted
      have reported := sound ⟨.cvxpy, some (.answering _ _ best), none⟩ _ (path _)
      simp only [ConstraintSolver.detectArbitrage, solveCvxpy, guaranteed_resultOf_iff] at reported
      have touched := reported _ (Milp.answering_choice _ _ best) (by rwa [cost]) a' b' allowed'
      simpa only [single_castAdd, single_natAdd, decide_eq_true_eq] using touched
    · rintro choice ⟨admitted, below, least⟩ a b allowed
      have best : IsOptimum (scipyProblem (Fin.append pricesA pricesB) rows).Feasible (dot (Fin.append pricesA pricesB)) (some choice) := by
        constructor
        · exact (scipyProblem_feasible _).2 ((loosely _).2 admitted)
        · intro other feasible
          exact least other ((loosely other).1 ((scipyProblem_feasible _).1 feasible))
      have reported := sound ⟨.scipy, none, some (.answering _ _ best)⟩ _ (path _)
      simp only [ConstraintSolver.detectArbitrage, solveScipy, guaranteed_resultOf_iff] at reported
      exact reported _ (Milp.answering_choice _ _ best) below a b allowed
  · rintro ⟨joint, loose⟩ self result reported
    rw [path, Option.some_inj] at reported
    subst reported
    have relaxed : ∀ answer : Option (Choice (nA + nB)), IsOptimum (Relaxed rows) (dot (Fin.append pricesA pricesB)) answer →
        ∀ found missed, Guaranteed dependencies (resultOf (Fin.append pricesA pricesB) answer found missed) := by
      intro answer optimum found missed
      rw [guaranteed_resultOf_iff]
      intro choice same below
      subst same
      exact loose choice ⟨(loosely choice).1 optimum.1, below, fun other admitted => optimum.2 other ((loosely other).2 admitted)⟩
    have fallback : Guaranteed dependencies (solveFallback (Fin.append pricesA pricesB) rows) := by
      unfold solveFallback
      by_cases large : 20 < nA + nB
      · rw [if_pos large]
        intro impossible
        exact absurd impossible (by simp [notFound])
      · rw [if_neg large]
        exact relaxed _ (solveFallback_optimum _) _ _
    have cvxpy : ∀ milp, Guaranteed dependencies (solveCvxpy milp (Fin.append pricesA pricesB) rows) := by
      intro milp
      rw [solveCvxpy, guaranteed_resultOf_iff]
      intro choice same below a b allowed
      have optimum := @solveCvxpy_optimum _ rows milp (Fin.append pricesA pricesB)
      rw [same] at optimum
      obtain ⟨a', b', rfl, admitted⟩ := (exactly choice).1 optimum.1
      have least : ∀ x y, Allowed dependencies x y → pricesA a' + pricesB b' ≤ pricesA x + pricesB y := by
        intro x y possible
        have bound := optimum.2 _ ((exactly _).2 ⟨x, y, rfl, possible⟩)
        rwa [cost, cost] at bound
      rw [cost] at below
      simpa only [single_castAdd, single_natAdd, decide_eq_true_eq] using joint a' b' admitted below least a b allowed
    have scipy : ∀ milp, Guaranteed dependencies (solveScipy milp (Fin.append pricesA pricesB) rows) :=
      fun milp => relaxed _ (solveScipy_optimum milp _) _ _
    unfold ConstraintSolver.detectArbitrage
    split
    · exact cvxpy _
    · exact scipy _
    · exact fallback

end

def thirtySeventy : Fin 2 → ℚ := fun i => if i.val = 0 then 3 / 10 else 7 / 10

/-- Without dependencies the two cheap outcomes are bought as a cover, and pay nothing when neither comes true. -/
theorem reported_not_guaranteed :
    ¬ ((∀ (nA nB : ℕ) (pricesA : Fin nA → ℚ) (pricesB : Fin nB → ℚ) (dependencies : List Dependency),
        (∀ a, 0 ≤ pricesA a ∧ pricesA a ≤ 1) → (∀ b, 0 ≤ pricesB b ∧ pricesB b ≤ 1) → (∀ dep ∈ dependencies, dep.Valid nA nB) →
        Sound pricesA pricesB dependencies)) := by
  intro all
  have sound := all 2 2 thirtySeventy thirtySeventy [] (by decide +kernel) (by decide +kernel) (by simp)
  have reported : ∃ result, (ConstraintSolver.auto none none).detectCrossMarketArbitrage thirtySeventy thirtySeventy [] = some result ∧
      result.arbitrageFound = true ∧ result.totalCost + result.profit = 1 ∧ payoff result.positions (1 : Fin 2) (1 : Fin 2) = 0 :=
    ⟨_, rfl, by decide +kernel, by decide +kernel, by decide +kernel⟩
  obtain ⟨result, made, found, owed, paid⟩ := reported
  have guaranteed := sound _ result made found 1 1 (by simp [Allowed])
  rw [owed, paid] at guaranteed
  exact absurd guaranteed (by norm_num)

/-- The only outcome of a market is in every cover, and comes true. -/
theorem reported_guaranteed_single : Sound thirtySeventy (fun _ : Fin 1 => (1 : ℚ) / 2) [⟨0, 0, .implies⟩] := by
  apply (reported_guaranteed_iff thirtySeventy (fun _ : Fin 1 => (1 : ℚ) / 2) (by simp [Dependency.Valid])).2
  constructor
  · intro a b _ _ _ a' b' _
    exact Or.inr (Subsingleton.elim b' b)
  · rintro choice ⟨⟨_, ⟨b, chosen⟩, _⟩, _, _⟩ a' b' _
    rw [Subsingleton.elim b' b]
    exact Or.inr chosen

end Callisto.Optimization
