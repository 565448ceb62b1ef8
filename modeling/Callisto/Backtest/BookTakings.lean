import Callisto.Backtest.Matching
import Mathlib.Algebra.BigOperators.Fin
import Mathlib.Algebra.Order.BigOperators.Group.Finset
import Mathlib.Tactic.Linarith

/-! What has been taken from every displayed level of a book, against what the book has on record as
consumed at its price. -/

namespace Callisto.Backtest

open Callisto.Library

namespace ResidualBook

def takenAt (book : ResidualBook) (side : Side) (index : ℕ) : ℚ :=
  ((book.takings.filter fun taking => taking.side = side ∧ taking.level = index).map Taking.size).sum

def takenBy (book : ResidualBook) (side : Side) : ℚ :=
  ((book.takings.filter fun taking => taking.side = side).map Taking.size).sum

def displayedWithin (book : ResidualBook) (side : Side) (limit : ℚ) : ℚ :=
  (((book.snapshot.opposite side).filter fun level => ¬ side.Beyond limit level.price).map
    fun level => max 0 level.size).sum

/-- The record of the consumption at the price of a level covers what was taken from it. -/
def Recorded (book : ResidualBook) (side : Side) (index : ℕ) : Prop :=
  ∀ level, (book.snapshot.opposite side)[index]? = some level → book.takenAt side index ≤ book.consumed side level.price

def Fitted (book : ResidualBook) (side : Side) (index : ℕ) : Prop :=
  ∀ level, (book.snapshot.opposite side)[index]? = some level → book.takenAt side index ≤ max 0 level.size

def Placed (book : ResidualBook) : Prop :=
  ∀ taking ∈ book.takings, 0 < taking.size ∧ ∃ level,
    (book.snapshot.opposite taking.side)[taking.level]? = some level ∧ ¬ taking.side.Beyond taking.limit level.price

theorem takenAt_take (book : ResidualBook) (taking : Taking) (price : ℚ) (side : Side) (index : ℕ) :
    (book.take taking price).takenAt side index =
      book.takenAt side index + if taking.side = side ∧ taking.level = index then taking.size else 0 := by
  unfold takenAt
  rw [takings_take, List.filter_append, List.map_append, List.sum_append, List.filter_singleton]
  by_cases own : taking.side = side ∧ taking.level = index
  · simp [own]
  · rw [if_neg own]
    simp [own]

theorem takenBy_eq_sum {book : ResidualBook} (placed : book.Placed) (side : Side) :
    book.takenBy side = ∑ index ∈ Finset.range (book.snapshot.opposite side).length, book.takenAt side index := by
  have each : ∀ takings : List Taking, (∀ taking ∈ takings, taking ∈ book.takings) →
      ((takings.filter fun taking => taking.side = side).map Taking.size).sum =
        ∑ index ∈ Finset.range (book.snapshot.opposite side).length,
          ((takings.filter fun taking => taking.side = side ∧ taking.level = index).map Taking.size).sum := by
    intro takings subset
    induction takings with
    | nil => simp
    | cons taking rest ih =>
      have tail := ih fun other member => subset other (List.mem_cons_of_mem _ member)
      by_cases own : taking.side = side
      · obtain ⟨-, level, found, -⟩ := placed taking (subset taking List.mem_cons_self)
        rw [own] at found
        have inside : taking.level ∈ Finset.range (book.snapshot.opposite side).length :=
          Finset.mem_range.2 (List.getElem?_eq_some_iff.1 found).1
        have split : ∀ index, (((taking :: rest).filter fun taking => taking.side = side ∧ taking.level = index).map
            Taking.size).sum = (if taking.level = index then taking.size else 0) +
              ((rest.filter fun taking => taking.side = side ∧ taking.level = index).map Taking.size).sum := by
          intro index
          by_cases here : taking.level = index <;> simp [own, here]
        simp only [split]
        rw [Finset.sum_add_distrib, Finset.sum_ite_eq, if_pos inside, ← tail]
        simp [own]
      · simp only [List.filter_cons, own, false_and, decide_false, Bool.false_eq_true, if_false]
        exact tail
  exact each book.takings fun _ => id

def shareWithin (book : ResidualBook) (side : Side) (limit : ℚ) (index : ℕ) : ℚ :=
  ((book.snapshot.opposite side)[index]?).elim 0 fun level =>
    if side.Beyond limit level.price then 0 else max 0 level.size

theorem displayedWithin_eq_sum (book : ResidualBook) (side : Side) (limit : ℚ) : book.displayedWithin side limit =
    ∑ index ∈ Finset.range (book.snapshot.opposite side).length, book.shareWithin side limit index := by
  unfold displayedWithin shareWithin
  induction book.snapshot.opposite side with
  | nil => simp
  | cons level rest ih =>
    rw [List.length_cons, Finset.sum_range_succ']
    by_cases beyond : side.Beyond limit level.price
    · simpa [beyond] using ih
    · simp only [List.filter_cons, beyond, not_false_eq_true, decide_true, if_true, List.map_cons, List.sum_cons, ih,
        List.getElem?_cons_zero, Option.elim_some, if_false, List.getElem?_cons_succ]
      ring

theorem takenAt_eq_zero {book : ResidualBook} (placed : book.Placed) {side : Side} {limit : ℚ} {index : ℕ}
    {level : PriceLevel} (found : (book.snapshot.opposite side)[index]? = some level)
    (beyond : side.Beyond limit level.price)
    (within : ∀ taking ∈ book.takings, taking.side = side →
      ∀ price, side.Beyond limit price → side.Beyond taking.limit price) : book.takenAt side index = 0 := by
  have nobody : (book.takings.filter fun taking => taking.side = side ∧ taking.level = index) = [] := by
    rw [List.filter_eq_nil_iff]
    intro taking member own
    simp only [decide_eq_true_eq] at own
    obtain ⟨-, other, same, reached⟩ := placed taking member
    rw [own.1, own.2, found] at same
    cases same
    rw [own.1] at reached
    exact reached (within taking member own.1 level.price beyond)
  unfold takenAt
  rw [nobody]
  rfl

end ResidualBook

/-- No displayed share is filled twice: not from any level, and so not from a side within the limits of
the orders that took from it. -/
structure ResidualBook.NotOversold (book : ResidualBook) : Prop where
  levels : ∀ side index level, (book.snapshot.opposite side)[index]? = some level →
    book.takenAt side index ≤ max 0 level.size
  placed : book.Placed
  sides : ∀ side limit, (∀ taking ∈ book.takings, taking.side = side →
    ∀ price, side.Beyond limit price → side.Beyond taking.limit price) →
      book.takenBy side ≤ book.displayedWithin side limit

theorem notOversold_of_fitted {book : ResidualBook} (fitted : ∀ side index, book.Fitted side index)
    (placed : book.Placed) : book.NotOversold := by
  refine ⟨fun side index => fitted side index, placed, fun side limit within => ?_⟩
  rw [ResidualBook.takenBy_eq_sum placed side, book.displayedWithin_eq_sum side limit]
  apply Finset.sum_le_sum
  intro index inside
  obtain ⟨level, found⟩ : ∃ level, (book.snapshot.opposite side)[index]? = some level :=
    ⟨_, List.getElem?_eq_getElem (Finset.mem_range.1 inside)⟩
  unfold ResidualBook.shareWithin
  rw [found, Option.elim_some]
  by_cases beyond : side.Beyond limit level.price
  · rw [if_pos beyond, ResidualBook.takenAt_eq_zero placed found beyond within]
  · rw [if_neg beyond]
    exact fitted side index _ found

/-- A book at the levels of which an order has been, up to an index: what was taken from the levels ahead
is as it was, and the record covers every level that `keeps` names. -/
structure Walked (start : ResidualBook) (side : Side) (keeps : ℕ → Prop) (reached : ℕ) (book : ResidualBook) : Prop where
  snapshot : book.snapshot = start.snapshot
  ahead : ∀ index, reached ≤ index → book.takenAt side index = start.takenAt side index
  other : ∀ index, book.takenAt side.opposing index = start.takenAt side.opposing index
  fitted : ∀ index, book.Fitted side index
  recorded : ∀ index, keeps index → book.Recorded side index
  placed : book.Placed

namespace Walked

variable {start book : ResidualBook} {side : Side} {keeps : ℕ → Prop} {reached : ℕ}

theorem refl (fitted : ∀ index, start.Fitted side index) (recorded : ∀ index, keeps index → start.Recorded side index)
    (placed : start.Placed) (reached : ℕ) : Walked start side keeps reached start :=
  ⟨rfl, fun _ _ => rfl, fun _ => rfl, fitted, recorded, placed⟩

theorem skip (walked : Walked start side keeps reached book) : Walked start side keeps (reached + 1) book :=
  { walked with ahead := fun index later => walked.ahead index (by omega) }

theorem take (walked : Walked start side keeps reached book) {level : PriceLevel}
    (found : (start.snapshot.opposite side)[reached]? = some level) (recorded : start.Recorded side reached)
    {size limit consumedAt : ℚ} (positive : 0 < size)
    (left : size ≤ max 0 (level.size - start.consumed side level.price)) (within : ¬ side.Beyond limit level.price)
    (same : keeps reached → consumedAt = level.price) :
    Walked start side keeps (reached + 1) (book.take ⟨side, reached, limit, size⟩ consumedAt) := by
  have before := walked.ahead reached le_rfl
  have covered := recorded level found
  have here : (book.snapshot.opposite side)[reached]? = some level := by rw [walked.snapshot, found]
  constructor
  · rw [ResidualBook.snapshot_take, walked.snapshot]
  · intro index later
    have different : ¬ reached = index := by omega
    rw [ResidualBook.takenAt_take, if_neg (fun own => different own.2), add_zero]
    exact walked.ahead index (by omega)
  · intro index
    have different : ¬ side = side.opposing := by cases side <;> simp [Side.opposing]
    rw [ResidualBook.takenAt_take, if_neg (fun own => different own.1), add_zero]
    exact walked.other index
  · intro index other foundOther
    rw [ResidualBook.snapshot_take] at foundOther
    rw [ResidualBook.takenAt_take]
    by_cases own : reached = index
    · subst own
      rw [here] at foundOther
      cases foundOther
      rw [if_pos ⟨rfl, rfl⟩, before]
      have room : size ≤ level.size - start.consumed side level.price := by
        rcases le_max_iff.1 left with none_ | some_
        · exact absurd positive (not_lt.2 none_)
        · exact some_
      exact le_max_of_le_right (by linarith)
    · rw [if_neg (fun equal => own equal.2), add_zero]
      exact walked.fitted index other foundOther
  · intro index kept other foundOther
    rw [ResidualBook.snapshot_take] at foundOther
    rw [ResidualBook.takenAt_take, ResidualBook.consumed_take]
    have old := walked.recorded index kept other foundOther
    by_cases own : reached = index
    · subst own
      rw [here] at foundOther
      cases foundOther
      rw [if_pos ⟨rfl, rfl⟩, if_pos ⟨rfl, same kept⟩]
      linarith
    · rw [if_neg (fun equal => own equal.2), add_zero]
      split_ifs <;> linarith
  · intro taking member
    rw [ResidualBook.snapshot_take]
    rw [ResidualBook.takings_take, List.mem_append, List.mem_singleton] at member
    rcases member with old | rfl
    · exact walked.placed taking old
    · exact ⟨positive, level, here, within⟩

end Walked

end Callisto.Backtest
