import Callisto.Backtest.Engine

/-! The lives of positions: what opens one, what ends one, and what is kept of it. -/

namespace Callisto.Backtest

open Callisto.Library

namespace Position

def key (pos : Position) : PositionKey := (pos.tokenId, pos.side, pos.strategySlug)

def name (pos : Position) : PositionKey × Option Instant := (pos.key, pos.openedAt)

/-- An open position: it stands under its key, is more than dust, and was opened by now and not after its last mark. -/
structure Open (now : Option Instant) (key : PositionKey) (pos : Position) : Prop where
  keyed : pos.key = key
  large : dust < pos.size
  opened : ∃ opened clock, pos.openedAt = some opened ∧ now = some clock ∧ opened ≤ clock ∧ ∀ marked ∈ pos.lastMarkAt, opened ≤ marked

def Ended (pos : Position) : Prop := ∃ opened closed, pos.openedAt = some opened ∧ pos.closedAt = some closed ∧ opened ≤ closed

instance (pos : Position) : Decidable pos.Ended :=
  decidable_of_iff (∃ opened ∈ pos.openedAt, ∃ closed ∈ pos.closedAt, opened ≤ closed) (by
    unfold Ended
    simp only [Option.mem_def]
    tauto)

theorem dust_pos : 0 < dust := by norm_num [dust]

theorem Open.positive {now : Option Instant} {key : PositionKey} {pos : Position} (held : pos.Open now key) : 0 < pos.size :=
  dust_pos.trans held.large

theorem Open.later {now later : Option Instant} {key : PositionKey} {pos : Position} (held : pos.Open now key)
    (onward : ∀ clock, now = some clock → ∃ next, later = some next ∧ clock ≤ next) : pos.Open later key := by
  have ⟨opened, clock, at_, here, below, marked⟩ := held.opened
  have ⟨next, there, after⟩ := onward clock here
  exact ⟨held.keyed, held.large, opened, next, at_, there, below.trans after, marked⟩

@[simp] theorem name_applyCloseFill (pos : Position) (fill : Fill) : (pos.applyCloseFill fill).name = pos.name := by
  unfold applyCloseFill
  split <;> rfl

end Position

namespace Portfolio

variable {book : Portfolio} {now : Option Instant} {key : PositionKey} {pos : Position} {fill : Fill} {slug : Option String}

def closedOut (config : PortfolioConfig) (pos : Position) (price : ℚ) (moment : Instant) : Position :=
  let pnl := match pos.side with
    | .buy => price * pos.size - pos.costBasisUsd
    | .sell => pos.costBasisUsd - price * pos.size
  let resFee := closeResolutionFee config pnl
  { pos with
    size := 0
    costBasisUsd := 0
    realizedPnlUsd := pos.realizedPnlUsd + pnl - resFee
    feesPaidUsd := pos.feesPaidUsd + resFee
    fillCount := pos.fillCount + 1
    closedAt := some moment }

theorem closedPositions_closePositionAt (positive : 0 < pos.size) (price : ℚ) (moment : Instant) (isSettlement : Bool) :
    (book.closePositionAt key pos price moment isSettlement).closedPositions = book.closedPositions ++ [closedOut book.config pos price moment] := by
  have full : pos.size / pos.size = 1 := div_self positive.ne'
  have spent : (0 : ℚ) ≤ dust := Position.dust_pos.le
  unfold closePositionAt Position.applyCloseFill
  simp only [if_neg (not_le.mpr positive), min_self, full, mul_one, sub_self, if_pos spent, sub_zero, add_zero, add_sub_cancel_left]
  rfl

def named (book : Portfolio) (name : PositionKey × Option Instant) : ℤ :=
  (book.closedPositions.countP fun pos => pos.name = name) + book.positions.sumBy fun pos => if pos.name = name then 1 else 0

def opens (book : Portfolio) (fill : Fill) (slug : Option String) : List (PositionKey × Option Instant) :=
  if book.positions.get? (fill.tokenId, fill.side.opposing, slug) = none ∧ book.positions.get? (fill.tokenId, fill.side, slug) = none then
    [((fill.tokenId, fill.side, slug), some fill.occurredAt)]
  else []

/-- A fill that ends a position is not stamped before the position was opened, and one that opens a position is more than dust. -/
def Timely (book : Portfolio) (fill : Fill) (slug : Option String) : Prop :=
  (∀ pos ∈ book.positions.get? (fill.tokenId, fill.side.opposing, slug), pos.size - fill.size ≤ dust →
    ∀ opened ∈ pos.openedAt, opened ≤ fill.occurredAt) ∧
  (book.opens fill slug ≠ [] → dust < fill.size)

instance (book : Portfolio) (fill : Fill) (slug : Option String) : Decidable (book.Timely fill slug) := by
  unfold Timely
  infer_instance

/-! ## Closing -/

theorem named_append {closed : List Position} {ended : Position} (name : PositionKey × Option Instant) :
    ((closed ++ [ended]).countP fun pos => pos.name = name : ℤ) =
      (closed.countP fun pos => pos.name = name : ℕ) + if ended.name = name then 1 else 0 := by
  rw [List.countP_append, List.countP_singleton]
  by_cases same : ended.name = name
  · simp [same]
  · simp [same]

theorem named_closePositionAt (found : book.positions.get? key = some pos) (positive : 0 < pos.size) (price : ℚ) (moment : Instant)
    (isSettlement : Bool) (name : PositionKey × Option Instant) :
    (book.closePositionAt key pos price moment isSettlement).named name = book.named name := by
  have positions : (book.closePositionAt key pos price moment isSettlement).positions = book.positions.erase key := rfl
  have same : (closedOut book.config pos price moment).name = pos.name := rfl
  unfold named
  rw [closedPositions_closePositionAt positive, positions, Dict.sumBy_erase, found, named_append, same, Option.elim_some]
  omega

/-! ## Fills -/

theorem applyFill_of_some (opposing : book.positions.get? (fill.tokenId, fill.side.opposing, slug) = some pos) :
    book.applyFill fill slug = book.applyClosing (fill.tokenId, fill.side.opposing, slug) pos fill := by
  unfold applyFill
  simp only [opposing]

theorem applyFill_of_none (opposing : book.positions.get? (fill.tokenId, fill.side.opposing, slug) = none) :
    book.applyFill fill slug = book.applyOpening fill slug := by
  unfold applyFill
  simp only [opposing]

theorem closedPositions_applyClosing (book : Portfolio) (key : PositionKey) (pos : Position) (fill : Fill) :
    ∃ charged : Position, charged.name = pos.name ∧ charged.size = (pos.applyCloseFill fill).size ∧
      charged.closedAt = (pos.applyCloseFill fill).closedAt ∧ charged.lastMarkAt = pos.lastMarkAt ∧
      (book.applyClosing key pos fill).closedPositions = (if charged.size ≤ dust then book.closedPositions ++ [charged] else book.closedPositions) ∧
      (book.applyClosing key pos fill).positions = (if charged.size ≤ dust then book.positions.erase key else book.positions.set key charged) := by
  have reduced := Position.name_applyCloseFill pos fill
  have marked : (pos.applyCloseFill fill).lastMarkAt = pos.lastMarkAt := by
    unfold Position.applyCloseFill
    split <;> rfl
  refine ⟨{ pos.applyCloseFill fill with
    feesPaidUsd := (pos.applyCloseFill fill).feesPaidUsd +
      closeResolutionFee book.config ((pos.applyCloseFill fill).realizedPnlUsd - pos.realizedPnlUsd)
    realizedPnlUsd := (pos.applyCloseFill fill).realizedPnlUsd -
      closeResolutionFee book.config ((pos.applyCloseFill fill).realizedPnlUsd - pos.realizedPnlUsd) }, reduced, rfl, rfl, marked, ?_⟩
  unfold applyClosing
  by_cases spent : (pos.applyCloseFill fill).size ≤ dust
  · simp only [if_pos spent, and_self]
  · simp only [if_neg spent, and_self]

theorem named_applyClosing (found : book.positions.get? key = some pos) (fill : Fill) (name : PositionKey × Option Instant) :
    (book.applyClosing key pos fill).named name = book.named name := by
  have ⟨charged, same, _, _, _, closed, positions⟩ := closedPositions_applyClosing book key pos fill
  unfold named
  rw [closed, positions]
  by_cases spent : charged.size ≤ dust
  · rw [if_pos spent, if_pos spent, Dict.sumBy_erase, found, named_append, same, Option.elim_some]
    omega
  · rw [if_neg spent, if_neg spent, Dict.sumBy_set, found, same, Option.elim_some]
    omega

theorem name_opened (held : book.positions.All (Position.Open now)) (fill : Fill) (slug : Option String) :
    (((book.positions.get? (fill.tokenId, fill.side, slug)).getD { tokenId := fill.tokenId, side := fill.side, strategySlug := slug }).applyOpenFill
      fill).name =
        (book.positions.get? (fill.tokenId, fill.side, slug)).elim ((fill.tokenId, fill.side, slug), some fill.occurredAt) Position.name := by
  cases found : book.positions.get? (fill.tokenId, fill.side, slug) with
  | none => rfl
  | some pos =>
    have ⟨opened, _, at_, _⟩ := (held.of_get? found).opened
    rw [Option.getD_some, Option.elim_some, Position.name, Position.name, at_]
    show (pos.key, pos.openedAt.or _) = _
    rw [at_, Option.some_or]

theorem named_applyFill (held : book.positions.All (Position.Open now)) (fill : Fill) (slug : Option String) (name : PositionKey × Option Instant) :
    (book.applyFill fill slug).named name = book.named name + (book.opens fill slug).count name := by
  unfold opens
  cases opposing : book.positions.get? (fill.tokenId, fill.side.opposing, slug) with
  | some pos =>
    rw [applyFill_of_some opposing, named_applyClosing opposing]
    simp only [reduceCtorEq, false_and, if_false, List.count_nil, Nat.cast_zero, add_zero]
  | none =>
    rw [applyFill_of_none opposing]
    have left := name_opened held fill slug
    have positions : (book.applyOpening fill slug).positions = book.positions.set (fill.tokenId, fill.side, slug)
        (((book.positions.get? (fill.tokenId, fill.side, slug)).getD
          { tokenId := fill.tokenId, side := fill.side, strategySlug := slug }).applyOpenFill fill) := rfl
    have closed : (book.applyOpening fill slug).closedPositions = book.closedPositions := rfl
    unfold named
    rw [closed, positions, Dict.sumBy_set, left]
    cases own : book.positions.get? (fill.tokenId, fill.side, slug) with
    | some pos =>
      simp only [Option.elim_some, reduceCtorEq, and_false, if_false, List.count_nil, Nat.cast_zero, add_zero]
      by_cases same : pos.name = name
      · simp [same]
      · simp [same]
    | none =>
      simp only [Option.elim_none, and_self, if_true, List.count_singleton, beq_iff_eq]
      by_cases same : ((fill.tokenId, fill.side, slug), some fill.occurredAt) = name
      · simp [same, add_assoc]
      · simp [same]

theorem open_applyFill {clock : Instant} (held : book.positions.All (Position.Open (some clock))) (positive : 0 < fill.size)
    (timely : book.Timely fill slug) (stamped : fill.occurredAt ≤ clock) : (book.applyFill fill slug).positions.All (Position.Open (some clock)) := by
  cases opposing : book.positions.get? (fill.tokenId, fill.side.opposing, slug) with
  | some pos =>
    rw [applyFill_of_some opposing]
    have before := held.of_get? opposing
    have ⟨charged, same, _, _, marked, _, positions⟩ := closedPositions_applyClosing book (fill.tokenId, fill.side.opposing, slug) pos fill
    rw [positions]
    by_cases spent : charged.size ≤ dust
    · rw [if_pos spent]
      exact held.erase _
    · rw [if_neg spent]
      have ⟨keyed, opened⟩ := Prod.mk.inj same
      exact held.set ⟨keyed.trans before.keyed, not_le.mp spent, by rw [opened, marked]; exact before.opened⟩
  | none =>
    rw [applyFill_of_none opposing]
    have left := name_opened held fill slug
    apply held.set
    cases own : book.positions.get? (fill.tokenId, fill.side, slug) with
    | some pos =>
      have before := held.of_get? own
      have ⟨opened, _, at_, _⟩ := before.opened
      rw [own] at left
      have ⟨keyed, since⟩ := Prod.mk.inj left
      refine ⟨keyed.trans before.keyed, ?_, ?_⟩
      · show dust < pos.size + fill.size
        linarith [before.large]
      · show ∃ opened clock, pos.openedAt.or _ = _ ∧ _
        rw [at_, Option.some_or, ← at_]
        exact before.opened
    | none =>
      have large := timely.2 (by rw [opens, if_pos ⟨opposing, own⟩]; exact List.cons_ne_nil _ _)
      refine ⟨rfl, ?_, fill.occurredAt, clock, rfl, rfl, stamped, fun _ none_ => nomatch none_⟩
      show dust < 0 + fill.size
      rwa [zero_add]

theorem ended_applyFill {clock : Instant} (held : book.positions.All (Position.Open (some clock))) (ended : ∀ pos ∈ book.closedPositions, pos.Ended)
    (timely : book.Timely fill slug) : ∀ pos ∈ (book.applyFill fill slug).closedPositions, pos.Ended := by
  cases opposing : book.positions.get? (fill.tokenId, fill.side.opposing, slug) with
  | none =>
    rw [applyFill_of_none opposing]
    exact ended
  | some pos =>
    rw [applyFill_of_some opposing]
    have before := held.of_get? opposing
    have ⟨charged, same, size, closedAt, _, closed, _⟩ := closedPositions_applyClosing book (fill.tokenId, fill.side.opposing, slug) pos fill
    rw [closed]
    by_cases spent : charged.size ≤ dust
    · rw [if_pos spent]
      intro last member
      rw [List.mem_append, List.mem_singleton] at member
      cases member with
      | inl old => exact ended last old
      | inr new =>
        have ⟨opened, _, at_, _⟩ := before.opened
        have ⟨_, since⟩ := Prod.mk.inj same
        rw [size] at spent
        unfold Position.applyCloseFill at spent closedAt
        simp only [if_neg (not_le.mpr before.positive)] at spent closedAt
        rw [if_pos spent] at closedAt
        have small : pos.size - fill.size ≤ dust := by linarith [min_le_left fill.size pos.size]
        rw [new]
        exact ⟨opened, fill.occurredAt, since.trans at_, closedAt, timely.1 pos opposing small opened at_⟩
    · rw [if_neg spent]
      exact ended

theorem closedPositions_applyFill (book : Portfolio) (fill : Fill) (slug : Option String) :
    book.closedPositions <+: (book.applyFill fill slug).closedPositions := by
  cases opposing : book.positions.get? (fill.tokenId, fill.side.opposing, slug) with
  | none =>
    rw [applyFill_of_none opposing]
    exact List.prefix_rfl
  | some pos =>
    rw [applyFill_of_some opposing]
    have ⟨charged, _, _, _, _, closed, _⟩ := closedPositions_applyClosing book (fill.tokenId, fill.side.opposing, slug) pos fill
    rw [closed]
    by_cases spent : charged.size ≤ dust
    · rw [if_pos spent]
      exact List.prefix_append _ _
    · rw [if_neg spent]

/-! ## Marks -/

theorem named_mark (book : Portfolio) (tokenId : String) (price : ℚ) (moment : Instant) (name : PositionKey × Option Instant) :
    (book.mark tokenId price moment).named name = book.named name := by
  unfold named mark
  simp only
  rw [Dict.sumBy_mapValues]
  intro key pos
  by_cases marked : key.1 = tokenId
  · rw [if_pos marked]
    rfl
  · rw [if_neg marked]

theorem open_mark {clock : Instant} (held : book.positions.All (Position.Open (some clock))) (tokenId : String) (price : ℚ) :
    (book.mark tokenId price clock).positions.All (Position.Open (some clock)) := by
  apply held.mapValues
  intro key pos before
  by_cases marked : key.1 = tokenId
  · rw [if_pos marked]
    have ⟨opened, now, at_, here, below, _⟩ := before.opened
    refine ⟨before.keyed, before.large, opened, now, at_, here, below, fun last same => ?_⟩
    rw [← Option.some.inj same]
    rwa [Option.some.inj here]
  · rw [if_neg marked]
    exact before

end Portfolio

end Callisto.Backtest
