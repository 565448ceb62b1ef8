import Mathlib.Data.List.Infix

/-! Histories that grow event by event, each event under a law that reads the events before it. -/

namespace Callisto.Library

variable {ε : Type*}

/-- Every event of the history was allowed by the events before it. -/
inductive Lawful (allowed : List ε → ε → Prop) : List ε → Prop
  | nil : Lawful allowed []
  | snoc {earlier : List ε} {event : ε} (before : Lawful allowed earlier) (law : allowed earlier event) :
      Lawful allowed (earlier ++ [event])

namespace Lawful

variable {allowed : List ε → ε → Prop} {earlier later : List ε} {event : ε}

theorem snoc_iff : Lawful allowed (earlier ++ [event]) ↔ Lawful allowed earlier ∧ allowed earlier event := by
  constructor
  · intro lawful
    generalize whole : earlier ++ [event] = history at lawful
    cases lawful with
    | nil => simp at whole
    | snoc before law =>
      obtain ⟨rfl, same⟩ := List.append_inj' whole rfl
      cases same
      exact ⟨before, law⟩
  · exact fun parts => parts.1.snoc parts.2

theorem of_append (lawful : Lawful allowed (earlier ++ later)) : Lawful allowed earlier := by
  induction later using List.reverseRecOn with
  | nil => rwa [List.append_nil] at lawful
  | append_singleton middle last ih =>
    rw [← List.append_assoc, snoc_iff] at lawful
    exact ih lawful.1

theorem law (lawful : Lawful allowed (earlier ++ event :: later)) : allowed earlier event := by
  rw [List.append_cons] at lawful
  exact (snoc_iff.1 lawful.of_append).2

end Lawful

end Callisto.Library
