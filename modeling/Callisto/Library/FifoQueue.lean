import Mathlib.Algebra.Order.BigOperators.Group.List
import Mathlib.Algebra.Order.Ring.Defs
import Mathlib.Order.Bounds.Basic
import Mathlib.Tactic.Linarith
import Mathlib.Tactic.Ring

/-! An order that joins the end of a queue. Trades and cancels shorten the queue ahead; what a trade has left once the queue is gone
reaches the order. -/

namespace Callisto.Library.FifoQueue

variable {R : Type*} [CommRing R] [LinearOrder R] [IsStrictOrderedRing R]

inductive Move (R : Type*) where
  | trade (volume : R)
  | cancel (volume : R)

def Move.volume : Move R → R
  | .trade volume => volume
  | .cancel volume => volume

def ahead (queue : R) : Move R → R
  | .trade volume => queue - min volume queue
  | .cancel volume => max 0 (queue - volume)

def passed (queue : R) : Move R → R
  | .trade volume => volume - min volume queue
  | .cancel _ => 0

def left (queue : R) : List (Move R) → R
  | [] => 0
  | move :: rest => passed queue move + left (ahead queue move) rest

def queueAfter (queue : R) (moves : List (Move R)) : R := moves.foldl ahead queue

def traded : List (Move R) → R
  | [] => 0
  | .trade volume :: rest => volume + traded rest
  | .cancel _ :: rest => traded rest

def consumed (moves : List (Move R)) : R := (moves.map Move.volume).sum

/-- The trades after a part of the moves, less what that part leaves of the queue. -/
def leftAfter (queue : R) (first rest : List (Move R)) : R := max 0 (traded rest - max 0 (queue - consumed first))

variable {queue : R} {moves : List (Move R)}

theorem ahead_eq (queue : R) (move : Move R) : ahead queue move = max 0 (queue - move.volume) := by
  cases move with
  | cancel volume => rfl
  | trade volume =>
    simp only [ahead, Move.volume]
    cases le_total volume queue with
    | inl less => rw [min_eq_left less, max_eq_right (sub_nonneg.2 less)]
    | inr more => rw [min_eq_right more, sub_self, max_eq_left (sub_nonpos.2 more)]

theorem ahead_nonneg (queue : R) (move : Move R) : 0 ≤ ahead queue move := by
  rw [ahead_eq queue move]
  exact le_max_left _ _

theorem passed_nonneg (queue : R) (move : Move R) : 0 ≤ passed queue move := by
  cases move with
  | trade volume => exact sub_nonneg.2 (min_le_left _ _)
  | cancel volume => exact le_rfl

theorem left_nonneg (queue : R) (moves : List (Move R)) : 0 ≤ left queue moves := by
  induction moves generalizing queue with
  | nil => exact le_rfl
  | cons move rest ih => exact add_nonneg (passed_nonneg queue move) (ih _)

omit [IsStrictOrderedRing R] in
theorem left_append (queue : R) (first rest : List (Move R)) :
    left queue (first ++ rest) = left queue first + left (queueAfter queue first) rest := by
  induction first generalizing queue with
  | nil => exact (zero_add _).symm
  | cons move first ih =>
    rw [List.cons_append, left, left, ih, add_assoc]
    rfl

theorem left_le_left_append (queue : R) (first rest : List (Move R)) : left queue first ≤ left queue (first ++ rest) := by
  rw [left_append]
  exact le_add_of_nonneg_right (left_nonneg _ rest)

theorem queueAfter_eq (nonneg : 0 ≤ queue) (volumes : ∀ move ∈ moves, 0 ≤ move.volume) :
    queueAfter queue moves = max 0 (queue - consumed moves) := by
  induction moves generalizing queue with
  | nil => simp [queueAfter, consumed, nonneg]
  | cons move rest ih =>
    have own := volumes move List.mem_cons_self
    have others := fun other member => volumes other (List.mem_cons_of_mem _ member)
    have total : 0 ≤ consumed rest := List.sum_nonneg fun volume member => by
      have ⟨other, inside, same⟩ := List.mem_map.1 member
      exact same ▸ others other inside
    have later := ih (ahead_nonneg queue move) others
    unfold queueAfter consumed at later ⊢
    unfold consumed at total
    rw [List.foldl_cons, later, ahead_eq queue move, List.map_cons, List.sum_cons]
    cases le_total move.volume queue with
    | inl less => rw [max_eq_right (sub_nonneg.2 less), sub_sub]
    | inr more =>
      rw [max_eq_left (sub_nonpos.2 more), max_eq_left (by linarith), max_eq_left (by linarith)]

theorem left_antitone {longer : R} (shorter : queue ≤ longer) (moves : List (Move R)) : left longer moves ≤ left queue moves := by
  induction moves generalizing queue longer with
  | nil => exact le_rfl
  | cons move rest ih =>
    cases move with
    | trade volume =>
      have mins : min volume queue ≤ min volume longer := min_le_min_left volume shorter
      have behind : queue - min volume queue ≤ longer - min volume longer := by
        cases le_total volume queue with
        | inl less => rw [min_eq_left less, min_eq_left (less.trans shorter)]; linarith
        | inr more =>
          rw [min_eq_right more, sub_self]
          exact sub_nonneg.2 (min_le_right _ _)
      have later := ih behind
      simp only [left, passed, ahead]
      linarith
    | cancel volume =>
      have behind : max 0 (queue - volume) ≤ max 0 (longer - volume) := max_le_max_left 0 (sub_le_sub_right shorter volume)
      have later := ih behind
      simp only [left, passed, ahead]
      linarith

theorem left_empty (volumes : ∀ move ∈ moves, 0 ≤ move.volume) : left 0 moves = traded moves := by
  induction moves with
  | nil => rfl
  | cons move rest ih =>
    have own := volumes move List.mem_cons_self
    have later := ih fun other member => volumes other (List.mem_cons_of_mem _ member)
    cases move with
    | trade volume =>
      have whole : min volume 0 = 0 := min_eq_right own
      simp only [left, passed, ahead, traded, whole, sub_zero, later]
    | cancel volume =>
      have gone : max 0 (0 - volume) = 0 := max_eq_left (sub_nonpos.2 own)
      simp only [left, passed, ahead, traded, gone, zero_add, later]

theorem traded_le (nonneg : 0 ≤ queue) (volumes : ∀ move ∈ moves, 0 ≤ move.volume) : traded moves - queue ≤ left queue moves := by
  induction moves generalizing queue with
  | nil => simpa [traded, left] using nonneg
  | cons move rest ih =>
    have own := volumes move List.mem_cons_self
    have later := ih (ahead_nonneg queue move) fun other member => volumes other (List.mem_cons_of_mem _ member)
    cases move with
    | trade volume =>
      simp only [left, passed, ahead, traded] at later ⊢
      linarith
    | cancel volume =>
      have shorter : max 0 (queue - volume) ≤ queue := max_le nonneg (sub_le_self queue own)
      simp only [left, passed, ahead, traded] at later ⊢
      linarith

theorem leftAfter_le (nonneg : 0 ≤ queue) {first rest : List (Move R)} (volumes : ∀ move ∈ first ++ rest, 0 ≤ move.volume) :
    leftAfter queue first rest ≤ left queue (first ++ rest) := by
  have early : ∀ move ∈ first, 0 ≤ move.volume := fun move member => volumes move (List.mem_append_left rest member)
  have late : ∀ move ∈ rest, 0 ≤ move.volume := fun move member => volumes move (List.mem_append_right first member)
  have remaining := queueAfter_eq nonneg early
  have known : 0 ≤ queueAfter queue first := remaining ▸ le_max_left _ _
  have bound := traded_le known late
  refine max_le (left_nonneg _ _) ?_
  rw [← remaining, left_append]
  linarith [left_nonneg queue first]

theorem exists_leftAfter (nonneg : 0 ≤ queue) (volumes : ∀ move ∈ moves, 0 ≤ move.volume) :
    ∃ first rest, moves = first ++ rest ∧ left queue moves = leftAfter queue first rest := by
  induction moves generalizing queue with
  | nil =>
    refine ⟨[], [], rfl, ?_⟩
    simp [leftAfter, traded, consumed, left]
  | cons move rest ih =>
    have own := volumes move List.mem_cons_self
    have others := fun other member => volumes other (List.mem_cons_of_mem _ member)
    cases le_total move.volume queue with
    | inl less =>
      have shorter : ahead queue move = queue - move.volume := by
        rw [ahead_eq queue move, max_eq_right (sub_nonneg.2 less)]
      have nothing : passed queue move = 0 := by
        cases move with
        | trade volume => exact sub_eq_zero.2 (min_eq_left less).symm
        | cancel volume => rfl
      have ⟨first, later, split, same⟩ := ih (ahead_nonneg queue move) others
      refine ⟨move :: first, later, by rw [split, List.cons_append], ?_⟩
      rw [left, nothing, zero_add, same, leftAfter, leftAfter, shorter, consumed, consumed, List.map_cons, List.sum_cons, sub_sub]
    | inr more =>
      have gone : ahead queue move = 0 := by
        rw [ahead_eq queue move, max_eq_left (sub_nonpos.2 more)]
      have all : 0 ≤ traded rest := left_empty others ▸ left_nonneg 0 rest
      cases move with
      | trade volume =>
        have reached : queue ≤ volume := more
        refine ⟨[], .trade volume :: rest, rfl, ?_⟩
        rw [left, gone, left_empty others]
        simp only [passed, leftAfter, consumed, traded, List.map_nil, List.sum_nil, sub_zero, max_eq_right nonneg, min_eq_right reached]
        rw [max_eq_right (by linarith)]
        ring
      | cancel volume =>
        refine ⟨[.cancel volume], rest, rfl, ?_⟩
        have exceeded : queue ≤ volume := more
        rw [left, gone, left_empty others]
        simp only [passed, leftAfter, consumed, List.map_singleton, List.sum_singleton, Move.volume, zero_add]
        rw [max_eq_left (sub_nonpos.2 exceeded), sub_zero, max_eq_right all]

theorem left_isGreatest (nonneg : 0 ≤ queue) (volumes : ∀ move ∈ moves, 0 ≤ move.volume) :
    IsGreatest {amount | ∃ first rest, moves = first ++ rest ∧ amount = leftAfter queue first rest} (left queue moves) := by
  refine ⟨exists_leftAfter nonneg volumes, ?_⟩
  intro amount member
  have ⟨first, rest, split, same⟩ := member
  rw [same, split]
  exact leftAfter_le nonneg (split ▸ volumes)

end Callisto.Library.FifoQueue
