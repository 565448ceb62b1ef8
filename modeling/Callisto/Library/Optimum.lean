import Mathlib.Order.Lattice
import Mathlib.Data.Option.Basic
import Mathlib.Tactic.Common

/-! Minimisation over a feasible set: what an exact answer is, the enumeration that keeps the first of the cheapest,
and what a smaller feasible set changes of the optima below a threshold. -/

namespace Callisto.Library

variable {α κ : Type*} [LinearOrder κ]

/-- The answer of an exact minimisation, and none where nothing is feasible. -/
def IsOptimum (feasible : α → Prop) (cost : α → κ) : Option α → Prop
  | none => ∀ other, ¬ feasible other
  | some best => feasible best ∧ ∀ other, feasible other → cost best ≤ cost other

/-- A later candidate replaces the best one only where it is strictly cheaper. -/
def keepCheaper (cost : α → κ) (best : Option α) (candidate : α) : Option α :=
  match best with
  | none => some candidate
  | some kept => if cost candidate < cost kept then some candidate else some kept

def cheapest (feasible : α → Bool) (cost : α → κ) (candidates : List α) : Option α :=
  candidates.foldl (fun best candidate => if feasible candidate then keepCheaper cost best candidate else best) none

theorem keepCheaper_isOptimum {seen : α → Prop} {cost : α → κ} {best : Option α} (held : IsOptimum seen cost best) (candidate : α) :
    IsOptimum (fun other => seen other ∨ other = candidate) cost (keepCheaper cost best candidate) := by
  cases best with
  | none =>
    constructor
    · exact Or.inr rfl
    · intro other either
      obtain old | same := either
      · exact absurd old (held other)
      · rw [same]
  | some kept =>
    by_cases cheaper : cost candidate < cost kept
    · simp only [keepCheaper, if_pos cheaper]
      constructor
      · exact Or.inr rfl
      · intro other either
        obtain old | same := either
        · exact cheaper.le.trans (held.2 other old)
        · rw [same]
    · simp only [keepCheaper, if_neg cheaper]
      constructor
      · exact Or.inl held.1
      · intro other either
        obtain old | same := either
        · exact held.2 other old
        · rw [same]
          exact not_lt.1 cheaper

theorem foldl_isOptimum (feasible : α → Bool) (cost : α → κ) (candidates : List α) {seen : α → Prop} {best : Option α}
    (held : IsOptimum seen cost best) :
    IsOptimum (fun other => seen other ∨ feasible other = true ∧ other ∈ candidates) cost
      (candidates.foldl (fun best candidate => if feasible candidate then keepCheaper cost best candidate else best) best) := by
  induction candidates generalizing seen best with
  | nil => simpa using held
  | cons candidate rest ih =>
    rw [List.foldl_cons]
    by_cases admitted : feasible candidate = true
    · rw [if_pos admitted]
      have next := ih (keepCheaper_isOptimum held candidate)
      have same : (fun other => seen other ∨ feasible other = true ∧ other ∈ candidate :: rest) =
          fun other => (seen other ∨ other = candidate) ∨ feasible other = true ∧ other ∈ rest := by
        funext other
        grind
      rwa [same]
    · rw [if_neg admitted]
      have next := ih held
      have same : (fun other => seen other ∨ feasible other = true ∧ other ∈ candidate :: rest) =
          fun other => seen other ∨ feasible other = true ∧ other ∈ rest := by
        funext other
        grind
      rwa [same]

theorem cheapest_isOptimum {feasible : α → Bool} {cost : α → κ} {candidates : List α}
    (covers : ∀ other, feasible other = true → other ∈ candidates) :
    IsOptimum (fun other => feasible other = true) cost (cheapest feasible cost candidates) := by
  have nothing : IsOptimum (fun _ : α => False) cost none := fun _ impossible => impossible
  have found := foldl_isOptimum feasible cost candidates nothing
  have same : (fun other => False ∨ feasible other = true ∧ other ∈ candidates) = fun other => feasible other = true := by
    funext other
    grind
  rwa [same] at found

def costBelow (threshold : κ) (cost : α → κ) (answer : Option α) : Option κ := (answer.map cost).filter fun value => decide (value < threshold)

theorem IsOptimum.costBelow_eq_some_iff {feasible : α → Prop} {cost : α → κ} {answer : Option α} (optimum : IsOptimum feasible cost answer)
    {threshold value : κ} : costBelow threshold cost answer = some value ↔
      value < threshold ∧ (∃ best, feasible best ∧ cost best = value) ∧ ∀ other, feasible other → value ≤ cost other := by
  cases answer with
  | none =>
    constructor
    · intro found
      exact absurd found (by simp [costBelow])
    · rintro ⟨-, ⟨best, admitted, -⟩, -⟩
      exact absurd admitted (optimum best)
  | some chosen =>
    have shown : costBelow threshold cost (some chosen) = some value ↔ cost chosen = value ∧ value < threshold := by
      simp [costBelow, Option.filter_eq_some_iff]
    rw [shown]
    constructor
    · rintro ⟨same, below⟩
      subst same
      exact ⟨below, ⟨chosen, optimum.1, rfl⟩, optimum.2⟩
    · rintro ⟨below, ⟨best, admitted, rfl⟩, least⟩
      have same : cost chosen = cost best := le_antisymm (optimum.2 best admitted) (least chosen optimum.1)
      exact ⟨same, below⟩

/-- Fewer feasible candidates give the same optimum below the threshold exactly when each cheap candidate that
is left out is matched by one that is not dearer. -/
theorem IsOptimum.costBelow_eq_iff {strict relaxed : α → Prop} {cost : α → κ} {answer other : Option α} {threshold : κ}
    (exactly : IsOptimum strict cost answer) (loosely : IsOptimum relaxed cost other) (weaker : ∀ choice, strict choice → relaxed choice) :
    costBelow threshold cost answer = costBelow threshold cost other ↔
      ∀ choice, relaxed choice → ¬ strict choice → cost choice < threshold → ∃ matching, strict matching ∧ cost matching ≤ cost choice := by
  constructor
  · intro same choice admitted _ below
    cases other with
    | none => exact absurd admitted (loosely choice)
    | some best =>
      have cheap : cost best ≤ cost choice := loosely.2 choice admitted
      have found : costBelow threshold cost (some best) = some (cost best) :=
        loosely.costBelow_eq_some_iff.2 ⟨cheap.trans_lt below, ⟨best, loosely.1, rfl⟩, loosely.2⟩
      rw [← same] at found
      obtain ⟨-, ⟨matching, exact_matching, cost_matching⟩, -⟩ := exactly.costBelow_eq_some_iff.1 found
      exact ⟨matching, exact_matching, cost_matching ▸ cheap⟩
  · intro matched
    have each : ∀ choice, relaxed choice → cost choice < threshold → ∃ matching, strict matching ∧ cost matching ≤ cost choice := by
      intro choice admitted below
      by_cases strictly : strict choice
      · exact ⟨choice, strictly, le_refl _⟩
      · exact matched choice admitted strictly below
    apply Option.ext
    intro value
    rw [exactly.costBelow_eq_some_iff, loosely.costBelow_eq_some_iff]
    constructor
    · rintro ⟨below, ⟨best, admitted, rfl⟩, least⟩
      have all : ∀ choice, relaxed choice → cost best ≤ cost choice := by
        intro choice choosable
        by_contra cheaper
        obtain ⟨matching, strictly, cheap⟩ := each choice choosable ((not_le.1 cheaper).trans below)
        exact cheaper ((least matching strictly).trans cheap)
      exact ⟨below, ⟨best, weaker best admitted, rfl⟩, all⟩
    · rintro ⟨below, ⟨best, admitted, rfl⟩, least⟩
      obtain ⟨matching, strictly, cheap⟩ := each best admitted below
      have same : cost matching = cost best := le_antisymm cheap (least matching (weaker matching strictly))
      exact ⟨below, ⟨matching, strictly, same⟩, fun choice choosable => least choice (weaker choice choosable)⟩

end Callisto.Library
