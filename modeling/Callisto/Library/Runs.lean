import Mathlib.Data.List.Infix

/-! Runs of a total step function. An operation that raises is a step that leaves the state as it
was, so every list of events is a run and a property of runs is an induction over that list. -/

namespace Callisto.Library.Runs

variable {σ ε : Type*}

def run (step : σ → ε → σ) : σ → List ε → σ
  | state, [] => state
  | state, event :: rest => run step (step state event) rest

@[simp] theorem run_nil (step : σ → ε → σ) (state : σ) : run step state [] = state := rfl

@[simp] theorem run_cons (step : σ → ε → σ) (state : σ) (event : ε) (rest : List ε) :
    run step state (event :: rest) = run step (step state event) rest := rfl

theorem run_append (step : σ → ε → σ) (state : σ) (first second : List ε) :
    run step state (first ++ second) = run step (run step state first) second := by
  induction first generalizing state with
  | nil => rfl
  | cons event rest ih => exact ih (step state event)

theorem run_eq_foldl (step : σ → ε → σ) (state : σ) (events : List ε) : run step state events = events.foldl step state := by
  induction events generalizing state with
  | nil => rfl
  | cons event rest ih => exact ih (step state event)

/-- Every step of the run starts in a state, and with an event, that `ok` admits. -/
def Meets (step : σ → ε → σ) (ok : σ → ε → Prop) : σ → List ε → Prop
  | _, [] => True
  | state, event :: rest => ok state event ∧ Meets step ok (step state event) rest

@[simp] theorem meets_nil (step : σ → ε → σ) (ok : σ → ε → Prop) (state : σ) :
    Meets step ok state [] := trivial

@[simp] theorem meets_cons (step : σ → ε → σ) (ok : σ → ε → Prop) (state : σ) (event : ε) (rest : List ε) :
    Meets step ok state (event :: rest) ↔ ok state event ∧ Meets step ok (step state event) rest := Iff.rfl

instance decidableMeets (step : σ → ε → σ) (ok : σ → ε → Prop) [∀ state event, Decidable (ok state event)] :
    ∀ (state : σ) (events : List ε), Decidable (Meets step ok state events)
  | _, [] => isTrue trivial
  | state, event :: rest =>
    have := decidableMeets step ok (step state event) rest
    inferInstanceAs (Decidable (ok state event ∧ Meets step ok (step state event) rest))

variable {step : σ → ε → σ} {ok : σ → ε → Prop}

theorem Meets.of_append {state : σ} {first second : List ε}
    (meets : Meets step ok state (first ++ second)) :
    Meets step ok state first ∧ Meets step ok (run step state first) second := by
  induction first generalizing state with
  | nil => exact ⟨trivial, meets⟩
  | cons event rest ih =>
    have tail := ih meets.2
    exact ⟨⟨meets.1, tail.1⟩, tail.2⟩

theorem Meets.append {state : σ} {first second : List ε} (start : Meets step ok state first)
    (later : Meets step ok (run step state first) second) : Meets step ok state (first ++ second) := by
  induction first generalizing state with
  | nil => exact later
  | cons event rest ih => exact ⟨start.1, ih start.2 later⟩

theorem Meets.and {ok other : σ → ε → Prop} {state : σ} {events : List ε} (first : Meets step ok state events)
    (second : Meets step other state events) : Meets step (fun state event => ok state event ∧ other state event) state events := by
  induction events generalizing state with
  | nil => trivial
  | cons event rest ih => exact ⟨⟨first.1, second.1⟩, ih first.2 second.2⟩

theorem Meets.of_forall (all : ∀ state event, ok state event) :
    ∀ (state : σ) (events : List ε), Meets step ok state events
  | _, [] => trivial
  | state, event :: rest => ⟨all state event, Meets.of_forall all (step state event) rest⟩

theorem Meets.of_mem {ok : ε → Prop} {events : List ε} (all : ∀ event ∈ events, ok event) (state : σ) :
    Meets step (fun _ event => ok event) state events := by
  induction events generalizing state with
  | nil => trivial
  | cons event rest ih =>
    exact ⟨all event List.mem_cons_self, ih (fun other member => all other (List.mem_cons_of_mem _ member)) (step state event)⟩

theorem invariant {good : σ → Prop}
    (keeps : ∀ state event, good state → ok state event → good (step state event))
    {state : σ} {events : List ε} (start : good state) (meets : Meets step ok state events) :
    good (run step state events) := by
  induction events generalizing state with
  | nil => exact start
  | cons event rest ih => exact ih (keeps state event start meets.1) meets.2

theorem Meets.imp {ok promise : σ → ε → Prop} {inv : σ → Prop}
    (keeps : ∀ state event, inv state → ok state event → inv (step state event))
    (promises : ∀ state event, inv state → ok state event → promise state event)
    {state : σ} {events : List ε} (held : inv state) (meets : Meets step ok state events) :
    Meets step promise state events := by
  induction events generalizing state with
  | nil => trivial
  | cons event rest ih =>
    exact ⟨promises state event held meets.1, ih (keeps state event held meets.1) meets.2⟩

theorem invariant_all {good : σ → Prop}
    (keeps : ∀ state event, good state → good (step state event))
    {state : σ} (start : good state) (events : List ε) : good (run step state events) := by
  have meets : Meets step (fun _ _ => True) state events := Meets.of_forall (fun _ _ => trivial) state events
  exact invariant (fun state event held _ => keeps state event held) start meets

/-- The property holds in every state that the run passes through, the first and the last included. -/
def Always (step : σ → ε → σ) (good : σ → Prop) (state : σ) (events : List ε) : Prop :=
  ∀ first, first <+: events → good (run step state first)

theorem always_cons {good : σ → Prop} {state : σ} {event : ε} {rest : List ε} :
    Always step good state (event :: rest) ↔ good state ∧ Always step good (step state event) rest := by
  constructor
  · intro always
    refine ⟨always [] List.nil_prefix, fun first isPrefix => ?_⟩
    exact always (event :: first) ((List.prefix_cons_inj event).2 isPrefix)
  · rintro ⟨start, later⟩ first isPrefix
    cases first with
    | nil => exact start
    | cons head tail =>
      obtain ⟨rfl, tailPrefix⟩ := List.cons_prefix_cons.1 isPrefix
      exact later tail tailPrefix

theorem always_of_meets {good : σ → Prop}
    (keeps : ∀ state event, good state → ok state event → good (step state event))
    {state : σ} {events : List ε} (start : good state) (meets : Meets step ok state events) :
    Always step good state events := by
  rintro first ⟨second, rfl⟩
  exact invariant keeps start meets.of_append.1

/-- When one step keeps the property exactly under `ok`, a run keeps it throughout exactly when
every step of the run meets `ok`. The step may rely on an invariant of its own. -/
theorem always_iff_meets {inv good : σ → Prop}
    (keeps : ∀ state event, inv state → inv (step state event))
    (exact_step : ∀ state event, inv state → good state → (good (step state event) ↔ ok state event))
    {state : σ} {events : List ε} (held : inv state) (start : good state) :
    Always step good state events ↔ Meets step ok state events := by
  induction events generalizing state with
  | nil =>
    refine ⟨fun _ => trivial, fun _ first isPrefix => ?_⟩
    rw [List.prefix_nil.1 isPrefix]
    exact start
  | cons event rest ih =>
    have heldNext := keeps state event held
    rw [always_cons, meets_cons]
    constructor
    · rintro ⟨-, later⟩
      have next : good (step state event) := later [] List.nil_prefix
      exact ⟨(exact_step state event held start).1 next, (ih heldNext next).1 later⟩
    · rintro ⟨admitted, later⟩
      have next : good (step state event) := (exact_step state event held start).2 admitted
      exact ⟨start, (ih heldNext next).2 later⟩

/-- The same over runs whose steps all lie in a domain, where the invariant has to be kept only by steps that meet `ok`. -/
theorem always_iff_meets_within {domain ok : σ → ε → Prop} {inv good : σ → Prop}
    (keeps : ∀ state event, inv state → domain state event → ok state event → inv (step state event))
    (exact_step : ∀ state event, inv state → domain state event → good state → (good (step state event) ↔ ok state event))
    {state : σ} {events : List ε} (held : inv state) (start : good state) (within : Meets step domain state events) :
    Always step good state events ↔ Meets step ok state events := by
  induction events generalizing state with
  | nil =>
    refine ⟨fun _ => trivial, fun _ first isPrefix => ?_⟩
    rw [List.prefix_nil.1 isPrefix]
    exact start
  | cons event rest ih =>
    rw [always_cons, meets_cons]
    constructor
    · rintro ⟨-, later⟩
      have next : good (step state event) := later [] List.nil_prefix
      have admitted : ok state event := (exact_step state event held within.1 start).1 next
      exact ⟨admitted, (ih (keeps state event held within.1 admitted) next within.2).1 later⟩
    · rintro ⟨admitted, later⟩
      have next : good (step state event) := (exact_step state event held within.1 start).2 admitted
      exact ⟨start, (ih (keeps state event held within.1 admitted) next within.2).2 later⟩

theorem meets_iff_meets {ok promise : σ → ε → Prop} {inv : σ → Prop}
    (keeps : ∀ state event, inv state → ok state event → inv (step state event))
    (exact_step : ∀ state event, inv state → (promise state event ↔ ok state event))
    {state : σ} {events : List ε} (held : inv state) : Meets step promise state events ↔ Meets step ok state events := by
  induction events generalizing state with
  | nil => exact Iff.rfl
  | cons event rest ih =>
    rw [meets_cons, meets_cons, exact_step state event held]
    exact and_congr_right fun admitted => ih (keeps state event held admitted)

end Callisto.Library.Runs
