import Mathlib.Data.List.Basic
import Mathlib.Data.List.Induction
import Mathlib.Data.List.TakeWhile
import Mathlib.Order.Lattice

/-! A rolling window over an ordered series: each new item evicts what is older than a cut-off of its own. What is looked up as of a
time at or behind the cut-off is found as in the whole series, unless it was evicted. -/

namespace Callisto.Library.SlidingWindow

variable {α τ : Type} [LinearOrder τ] (time : α → τ)

def evictBefore (cutoff : τ) (items : List α) : List α := items.dropWhile fun item => time item < cutoff

def push (cutoff : α → τ) (window : List α) (item : α) : List α := evictBefore time (cutoff item) (window ++ [item])

def lastAt (bound : τ) (items : List α) : Option α := items.reverse.find? fun item => time item ≤ bound

variable {time} {items : List α} {cutoff bound : τ}

theorem evictBefore_eq_filter (ordered : items.Pairwise fun first second => time first ≤ time second) (cutoff : τ) :
    evictBefore time cutoff items = items.filter fun item => cutoff ≤ time item := by
  unfold evictBefore
  induction items with
  | nil => rfl
  | cons item rest ih =>
    have ⟨first, later⟩ := List.pairwise_cons.1 ordered
    by_cases old : time item < cutoff
    · rw [List.dropWhile_cons, if_pos (decide_eq_true old), List.filter_cons, if_neg (by simpa using old), ih later]
    · have all : ∀ other ∈ item :: rest, decide (cutoff ≤ time other) = true := by
        intro other member
        cases List.mem_cons.1 member with
        | inl same => exact decide_eq_true (same ▸ not_lt.1 old)
        | inr held => exact decide_eq_true ((not_lt.1 old).trans (first other held))
      rw [List.dropWhile_cons, if_neg (by simpa using old), List.filter_eq_self.2 all]

theorem foldl_push {cutoff : α → τ}
    (follows : ∀ first second, time first ≤ time second → cutoff first ≤ cutoff second)
    (ordered : items.Pairwise fun first second => time first ≤ time second) :
    items.foldl (push time cutoff) [] = items.getLast?.elim [] fun newest => items.filter fun item => cutoff newest ≤ time item := by
  induction items using List.reverseRecOn with
  | nil => rfl
  | append_singleton items newest ih =>
    obtain ⟨before, -, last⟩ := List.pairwise_append.1 ordered
    have kept : ∀ old ∈ items.getLast?, cutoff old ≤ cutoff newest := fun old member =>
      follows old newest (last old (List.mem_of_getLast? member) newest List.mem_cons_self)
    rw [List.foldl_append, List.foldl_cons, List.foldl_nil, ih before, List.getLast?_concat, Option.elim_some, push]
    cases known : items.getLast? with
    | none =>
      rw [List.getLast?_eq_none_iff.1 known, Option.elim_none, List.nil_append, evictBefore_eq_filter (List.pairwise_singleton _ _)]
    | some old =>
      have sorted : ((items.filter fun item => cutoff old ≤ time item) ++ [newest]).Pairwise fun first second => time first ≤ time second :=
        ordered.sublist (List.filter_sublist.append_right _)
      rw [Option.elim_some, evictBefore_eq_filter sorted, List.filter_append, List.filter_append, List.filter_filter]
      congr 1
      refine List.filter_congr fun item _ => ?_
      rw [Bool.and_eq_left_iff_imp, decide_eq_true_iff, decide_eq_true_iff]
      exact fun recent => (kept old known).trans recent

theorem lastAt_eq (bound : τ) (items : List α) : lastAt time bound items = (items.filter fun item => time item ≤ bound).getLast? := by
  unfold lastAt
  rw [← List.head?_filter, List.filter_reverse, List.head?_reverse]

theorem lastAt_eq_none : lastAt time bound items = none ↔ ∀ item ∈ items, bound < time item := by
  rw [lastAt_eq, List.getLast?_eq_none_iff, List.filter_eq_nil_iff]
  simp

/-- If anything is older than the cut-off, something stands exactly at it. -/
def Anchored (time : α → τ) (cutoff : τ) (items : List α) : Prop := (∃ item ∈ items, time item < cutoff) → ∃ item ∈ items, time item = cutoff

section
variable (ordered : items.Pairwise fun first second => time first ≤ time second)
include ordered

theorem lastAt_kept (kept : ∃ item ∈ items, cutoff ≤ time item ∧ time item ≤ bound) :
    lastAt time bound (evictBefore time cutoff items) = lastAt time bound items := by
  have found : ∃ item ∈ items.filter fun item => time item ≤ bound, cutoff ≤ time item := by
    obtain ⟨item, member, recent, early⟩ := kept
    exact ⟨item, List.mem_filter.2 ⟨member, decide_eq_true early⟩, recent⟩
  have sorted := ordered.filter fun item => decide (time item ≤ bound)
  rw [lastAt_eq, lastAt_eq, evictBefore_eq_filter ordered, List.filter_comm, ← evictBefore_eq_filter sorted]
  generalize items.filter (fun item => time item ≤ bound) = early at found
  have parts := List.takeWhile_append_dropWhile (p := fun item => decide (time item < cutoff)) (l := early)
  have some_ : evictBefore time cutoff early ≠ [] := by
    obtain ⟨item, member, recent⟩ := found
    exact fun none => absurd (List.dropWhile_eq_nil_iff.1 none item member) (by simpa using recent)
  unfold evictBefore at some_ ⊢
  conv_rhs => rw [← parts]
  rw [List.getLast?_append_of_ne_nil _ some_]

theorem lastAt_evicted (none_ : ∀ item ∈ items, cutoff ≤ time item → bound < time item) :
    lastAt time bound (evictBefore time cutoff items) = none := by
  rw [evictBefore_eq_filter ordered, lastAt_eq_none]
  intro item member
  obtain ⟨held, recent⟩ := List.mem_filter.1 member
  exact none_ item held (of_decide_eq_true recent)

theorem lastAt_anchored (anchored : Anchored time cutoff items)
    (behind : cutoff ≤ bound) : lastAt time bound (evictBefore time cutoff items) = lastAt time bound items := by
  by_cases kept : ∃ item ∈ items, cutoff ≤ time item ∧ time item ≤ bound
  · exact lastAt_kept ordered kept
  · have later : ∀ item ∈ items, cutoff ≤ time item → bound < time item := fun item member recent =>
      not_le.1 fun early => kept ⟨item, member, recent, early⟩
    have none_ : lastAt time bound items = none := by
      refine lastAt_eq_none.2 fun item member => ?_
      by_cases old : time item < cutoff
      · obtain ⟨anchor, there, same⟩ := anchored ⟨item, member, old⟩
        exact absurd behind (not_le.2 (same ▸ later anchor there same.ge))
      · exact later item member (not_lt.1 old)
    rw [none_]
    exact lastAt_evicted ordered later

theorem lastAt_cutoff_iff : lastAt time cutoff (evictBefore time cutoff items) = lastAt time cutoff items ↔ Anchored time cutoff items := by
  refine ⟨fun same older => ?_, fun anchored => lastAt_anchored ordered anchored le_rfl⟩
  by_contra none_
  have later : ∀ item ∈ items, cutoff ≤ time item → cutoff < time item := fun item member recent =>
    recent.lt_of_ne fun equal => none_ ⟨item, member, equal.symm⟩
  rw [lastAt_evicted ordered later] at same
  obtain ⟨item, member, old⟩ := older
  exact absurd (lastAt_eq_none.1 same.symm item member) old.not_gt

end

end Callisto.Library.SlidingWindow
