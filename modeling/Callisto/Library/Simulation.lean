import Callisto.Library.Runs

/-! Two programs run in lockstep: outcomes that agree up to a relation, and runs that keep two states related. -/

namespace Callisto.Library.Runs

variable {ε α β α' β' σ τ ι : Type*}

/-- Both raise the same error, or both return, and what they return is related. -/
inductive Agree (related : α → β → Prop) : Except ε α → Except ε β → Prop
  | raised (error : ε) : Agree related (.error error) (.error error)
  | returned {first : α} {second : β} (results : related first second) : Agree related (.ok first) (.ok second)

theorem Agree.imp {related stronger : α → β → Prop} {first : Except ε α} {second : Except ε β} (agree : Agree related first second)
    (each : ∀ a b, related a b → stronger a b) : Agree stronger first second := by
  cases agree with
  | raised error => exact .raised error
  | returned results => exact .returned (each _ _ results)

def OnOk (result : Except ε α) (good : α → Prop) : Prop :=
  match result with
  | .error _ => True
  | .ok value => good value

instance (good : α → Prop) [DecidablePred good] : ∀ result : Except ε α, Decidable (OnOk result good)
  | .error _ => isTrue trivial
  | .ok value => inferInstanceAs (Decidable (good value))

theorem run_related {first : σ → ι → σ} {second : τ → ι → τ} {related : σ → τ → List ι → Prop}
    (steps : ∀ a b event rest, related a b (event :: rest) → related (first a event) (second b event) rest)
    {a : σ} {b : τ} {events : List ι} (start : related a b events) : related (run first a events) (run second b events) [] := by
  induction events generalizing a b with
  | nil => exact start
  | cons event rest ih => exact ih (steps a b event rest start)

end Callisto.Library.Runs
