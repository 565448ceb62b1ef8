import Callisto.Backtest.Portfolio
import Callisto.Library.Runs
import Mathlib.Tactic.FieldSimp
import Mathlib.Tactic.Ring
import Mathlib.Tactic.Linarith

/-! Every dollar of cash against profit and loss. The gap between them does not depend on marks; one
fill moves it by an amount that its branch of `applyFill` decides. -/

namespace Callisto.Backtest

open Callisto.Library Callisto.Library.Runs

/-- The direction of a position: long positions gain when the price rises. -/
def Side.sign : Side → ℚ
  | .buy => 1
  | .sell => -1

theorem Side.sign_mul_eq_zero (side : Side) (amount : ℚ) : side.sign * amount = 0 ↔ amount = 0 := by
  cases side <;> simp [Side.sign]

def Position.carryingValue (pos : Position) : ℚ :=
  if pos.size ≤ 0 then 0 else pos.side.sign * (pos.size * pos.entryPrice)

theorem Position.marketValue_sub_unrealized (pos : Position) :
    pos.marketValue - pos.unrealizedPnlUsd = pos.carryingValue := by
  unfold Position.marketValue Position.unrealizedPnlUsd Position.carryingValue
  cases pos.lastMarkPrice with
  | none => cases pos.side <;> simp [Side.sign]
  | some price =>
    by_cases empty : pos.size ≤ 0
    · simp [empty]
    · cases pos.side <;> simp [empty, Side.sign] <;> ring

namespace Portfolio

/-- Equity gained over the initial capital that neither realised nor unrealised profit explains. -/
def gap (book : Portfolio) : ℚ := book.equityUsd - book.config.initialCapitalUsd - book.totalPnlUsd

theorem gap_eq (book : Portfolio) :
    book.gap = book.cashUsd - book.config.initialCapitalUsd
      - (book.closedPositions.map Position.realizedPnlUsd).sum
      + book.positions.sumBy (fun pos => pos.carryingValue - pos.realizedPnlUsd) := by
  have marks : book.positions.sumBy Position.carryingValue =
      book.positions.sumBy Position.marketValue - book.positions.sumBy Position.unrealizedPnlUsd := by
    rw [← Dict.sumBy_sub]
    exact congrArg book.positions.sumBy (funext fun pos => (Position.marketValue_sub_unrealized pos).symm)
  rw [Dict.sumBy_sub, marks]
  unfold gap equityUsd totalPnlUsd realizedPnlUsd unrealizedPnlUsd
  ring

theorem gap_new (config : PortfolioConfig) : (new config).gap = 0 := by
  simp [gap_eq, new]

theorem gap_mark (book : Portfolio) (tokenId : String) (price : ℚ) (moment : Instant) :
    (book.mark tokenId price moment).gap = book.gap := by
  have same : ∀ (key : PositionKey) (pos : Position),
      (fun held : Position => held.carryingValue - held.realizedPnlUsd)
          (if key.1 = tokenId then pos.mark price moment else pos) =
        pos.carryingValue - pos.realizedPnlUsd := by
    intro key pos
    by_cases marked : key.1 = tokenId <;> simp [marked, Position.mark, Position.carryingValue]
  rw [gap_eq, gap_eq]
  simp only [mark]
  rw [Dict.sumBy_mapValues _ _ _ same]

def SidesAgree (book : Portfolio) : Prop := book.positions.All fun key pos => pos.side = key.2.1

/-- What a closing fill does to the gap: the cash it moves, less the profit it realises and the
carrying value it takes off the books. -/
theorem gap_applyClosing {book : Portfolio} {key : PositionKey} {pos : Position} (fill : Fill)
    (found : book.positions.get? key = some pos) :
    (book.applyClosing key pos fill).gap = book.gap
      + (cashAfterClose book.cashUsd pos fill - book.cashUsd)
      - ((pos.applyCloseFill fill).realizedPnlUsd - pos.realizedPnlUsd)
      + (if (pos.applyCloseFill fill).size ≤ dust then 0 else (pos.applyCloseFill fill).carryingValue)
      - pos.carryingValue := by
  have side : (pos.applyCloseFill fill).side = pos.side := by
    unfold Position.applyCloseFill
    split_ifs <;> rfl
  have cash : cashAfterClose book.cashUsd (pos.applyCloseFill fill) fill = cashAfterClose book.cashUsd pos fill := by
    simp only [cashAfterClose, side]
  rw [gap_eq, gap_eq]
  unfold applyClosing
  by_cases closed : (pos.applyCloseFill fill).size ≤ dust
  · simp only [if_pos closed, cash, Dict.sumBy_erase, found, Option.elim_some, List.map_append, List.map_cons,
      List.map_nil, List.sum_append, List.sum_cons, List.sum_nil]
    ring
  · simp only [if_neg closed, cash, Dict.sumBy_set, found, Option.elim_some, Position.carryingValue]
    ring

end Portfolio

/-- A fill against a held position: what is sold beyond the holding is worth nothing, and the cost of
what is dropped as dust is realised in full. -/
def BalancedClose (pos : Position) (fill : Fill) : Prop :=
  let take := min fill.size pos.size
  if pos.size ≤ 0 then fill.feeUsd = pos.side.sign * fill.notionalUsd
  else if pos.size - take ≤ dust then
    fill.price * (fill.size - take) + pos.costBasisUsd * (take / pos.size) = pos.entryPrice * pos.size
  else fill.size = 0 ∨ pos.costBasisUsd = pos.entryPrice * pos.size

instance (pos : Position) (fill : Fill) : Decidable (BalancedClose pos fill) := by
  unfold BalancedClose
  infer_instance

def BalancedOpen (pos : Position) (fill : Fill) : Prop :=
  let heldCost := pos.entryPrice * pos.size
  if 0 < pos.size + fill.size then fill.feeUsd = if pos.size ≤ 0 then fill.side.sign * heldCost else 0
  else fill.feeUsd = -(fill.side.sign * (fill.notionalUsd + if pos.size ≤ 0 then 0 else heldCost))

instance (pos : Position) (fill : Fill) : Decidable (BalancedOpen pos fill) := by
  unfold BalancedOpen
  infer_instance

theorem Portfolio.cashAfterClose_sub (cash : ℚ) (pos : Position) (fill : Fill) :
    Portfolio.cashAfterClose cash pos fill - cash = pos.side.sign * fill.notionalUsd - fill.feeUsd := by
  unfold Portfolio.cashAfterClose
  cases pos.side with
  | buy => simp only [Side.sign]; ring
  | sell => simp only [Side.sign]; ring

variable {pos : Position}

theorem Position.realized_applyCloseFill (fill : Fill) (holds : ¬ pos.size ≤ 0) :
    (pos.applyCloseFill fill).realizedPnlUsd - pos.realizedPnlUsd =
      pos.side.sign * (fill.price * min fill.size pos.size
        - pos.costBasisUsd * (min fill.size pos.size / pos.size)) - fill.feeUsd := by
  unfold Position.applyCloseFill
  rw [if_neg holds]
  cases pos.side with
  | buy => simp only [Side.sign]; ring
  | sell => simp only [Side.sign]; ring

theorem Position.size_applyCloseFill (fill : Fill) (holds : ¬ pos.size ≤ 0) :
    (pos.applyCloseFill fill).size = pos.size - min fill.size pos.size := by
  simp only [Position.applyCloseFill, if_neg holds]

theorem Position.carrying_applyCloseFill (fill : Fill) (holds : ¬ pos.size ≤ 0)
    (kept : ¬ pos.size - min fill.size pos.size ≤ dust) :
    (pos.applyCloseFill fill).carryingValue =
      pos.side.sign * ((pos.size - min fill.size pos.size) * pos.entryPrice) := by
  have positive : ¬ pos.size - min fill.size pos.size ≤ 0 := fun nonpos =>
    kept (nonpos.trans (by norm_num [dust]))
  simp only [Position.carryingValue, Position.applyCloseFill, if_neg holds, if_neg positive]

theorem balancedClose_iff (cash : ℚ) (pos : Position) (fill : Fill) :
    (Portfolio.cashAfterClose cash pos fill - cash)
      - ((pos.applyCloseFill fill).realizedPnlUsd - pos.realizedPnlUsd)
      + (if (pos.applyCloseFill fill).size ≤ dust then 0 else (pos.applyCloseFill fill).carryingValue)
      - pos.carryingValue = 0 ↔ BalancedClose pos fill := by
  rw [Portfolio.cashAfterClose_sub]
  by_cases empty : pos.size ≤ 0
  · have small : pos.size ≤ dust := empty.trans (by norm_num [dust])
    simp only [Position.applyCloseFill, if_pos empty, if_pos small, Position.carryingValue, BalancedClose]
    constructor <;> intro equation <;> linarith
  · have positive : pos.size ≠ 0 := fun zero => empty zero.le
    have held : pos.carryingValue = pos.side.sign * (pos.size * pos.entryPrice) := by
      simp only [Position.carryingValue, if_neg empty]
    rw [Position.realized_applyCloseFill fill empty, Position.size_applyCloseFill fill empty, held]
    unfold BalancedClose Fill.notionalUsd
    by_cases dropped : pos.size - min fill.size pos.size ≤ dust
    · simp only [if_neg empty, if_pos dropped]
      have factored : pos.side.sign * (fill.price * fill.size) - fill.feeUsd
            - (pos.side.sign * (fill.price * min fill.size pos.size
              - pos.costBasisUsd * (min fill.size pos.size / pos.size)) - fill.feeUsd)
            + 0 - pos.side.sign * (pos.size * pos.entryPrice) =
          pos.side.sign * (fill.price * (fill.size - min fill.size pos.size)
            + pos.costBasisUsd * (min fill.size pos.size / pos.size) - pos.entryPrice * pos.size) := by
        ring
      rw [factored, Side.sign_mul_eq_zero, sub_eq_zero]
    · -- what is kept is more than dust, so the fill was smaller than the position
      have whole : min fill.size pos.size = fill.size := by
        refine min_eq_left (le_of_not_ge fun larger => dropped ?_)
        rw [min_eq_right larger, sub_self]
        norm_num [dust]
      rw [Position.carrying_applyCloseFill fill empty dropped]
      simp only [whole] at dropped ⊢
      simp only [if_neg empty, if_neg dropped]
      have factored : pos.side.sign * (fill.price * fill.size) - fill.feeUsd
            - (pos.side.sign * (fill.price * fill.size - pos.costBasisUsd * (fill.size / pos.size)) - fill.feeUsd)
            + pos.side.sign * ((pos.size - fill.size) * pos.entryPrice)
            - pos.side.sign * (pos.size * pos.entryPrice) =
          pos.side.sign * (fill.size / pos.size * (pos.costBasisUsd - pos.entryPrice * pos.size)) := by
        field_simp
        ring
      rw [factored, Side.sign_mul_eq_zero, mul_eq_zero, div_eq_zero_iff, or_iff_left positive, sub_eq_zero]

namespace Portfolio

/-- The position that an opening fill scales, empty when there is none yet. -/
def scaled (book : Portfolio) (fill : Fill) (strategySlug : Option String) : Position :=
  (book.positions.get? (fill.tokenId, fill.side, strategySlug)).getD
    { tokenId := fill.tokenId, side := fill.side, strategySlug := strategySlug }

theorem gap_applyOpening {book : Portfolio} (fill : Fill) (strategySlug : Option String) :
    (book.applyOpening fill strategySlug).gap = book.gap
      - (fill.side.sign * fill.notionalUsd + fill.feeUsd)
      + (((book.scaled fill strategySlug).applyOpenFill fill).carryingValue
        - (book.scaled fill strategySlug).carryingValue) := by
  have cash : (book.applyOpening fill strategySlug).cashUsd =
      book.cashUsd - (fill.side.sign * fill.notionalUsd + fill.feeUsd) := by
    unfold applyOpening
    cases fill.side with
    | buy => simp only [Side.sign]; ring
    | sell => simp only [Side.sign]; ring
  have removed : (book.positions.get? (fill.tokenId, fill.side, strategySlug)).elim 0
        (fun pos => pos.carryingValue - pos.realizedPnlUsd) =
      (book.scaled fill strategySlug).carryingValue - (book.scaled fill strategySlug).realizedPnlUsd := by
    unfold scaled
    cases book.positions.get? (fill.tokenId, fill.side, strategySlug) with
    | none => simp [Position.carryingValue]
    | some pos => rfl
  rw [gap_eq, gap_eq, cash]
  simp only [applyOpening, Dict.sumBy_set, removed]
  rw [show (book.scaled fill strategySlug).realizedPnlUsd =
    ((book.scaled fill strategySlug).applyOpenFill fill).realizedPnlUsd from rfl]
  simp only [scaled]
  ring

theorem side_scaled {book : Portfolio} (agree : book.SidesAgree) (fill : Fill) (strategySlug : Option String) :
    (book.scaled fill strategySlug).side = fill.side := by
  unfold scaled
  cases found : book.positions.get? (fill.tokenId, fill.side, strategySlug) with
  | none => rfl
  | some pos => exact agree.of_get? found

end Portfolio

theorem balancedOpen_iff {fill : Fill} (side : pos.side = fill.side) :
    (pos.applyOpenFill fill).carryingValue - pos.carryingValue
      - (fill.side.sign * fill.notionalUsd + fill.feeUsd) = 0 ↔ BalancedOpen pos fill := by
  unfold BalancedOpen Position.carryingValue Position.applyOpenFill Fill.notionalUsd
  by_cases grows : 0 < pos.size + fill.size
  · have weighted : (pos.size + fill.size) *
          ((pos.entryPrice * pos.size + fill.price * fill.size) / (pos.size + fill.size)) =
        pos.entryPrice * pos.size + fill.price * fill.size := mul_div_cancel₀ _ grows.ne'
    simp only [if_pos grows, if_neg (not_le.2 grows), weighted, side]
    split_ifs <;> constructor <;> intro equation <;> linarith
  · simp only [if_neg grows, if_pos (not_lt.1 grows), side]
    split_ifs <;> constructor <;> intro equation <;> linarith

/-- A position that holds something, at a cost of its size times its entry price. -/
def Position.Regular (pos : Position) : Prop :=
  0 < pos.size ∧ pos.costBasisUsd = pos.entryPrice * pos.size

/-- Fills of positive size on regular positions: a close is balanced unless it sells more than the
position for money, or drops as dust what had cost something. -/
theorem Position.Regular.balancedClose_iff {fill : Fill} (regular : pos.Regular)
    (sized : 0 < fill.size) :
    BalancedClose pos fill ↔ dust < pos.size - fill.size ∨ fill.size = pos.size ∨
      (pos.size < fill.size ∧ fill.price = 0) ∨ (fill.size < pos.size ∧ pos.entryPrice = 0) := by
  obtain ⟨holds, cost⟩ := regular
  unfold BalancedClose
  rw [if_neg (not_le.2 holds), cost]
  have share : pos.entryPrice * pos.size * (min fill.size pos.size / pos.size) =
      pos.entryPrice * min fill.size pos.size := by
    field_simp
  simp only [share]
  have noDust : (0 : ℚ) < dust := by norm_num [dust]
  rcases lt_trichotomy fill.size pos.size with smaller | whole | larger
  · rw [min_eq_left smaller.le]
    by_cases kept : dust < pos.size - fill.size
    · simp [not_le.2 kept, kept]
    · have rest : pos.entryPrice * fill.size = pos.entryPrice * pos.size ↔ pos.entryPrice = 0 := by
        rw [mul_eq_mul_left_iff, or_iff_right smaller.ne]
      simp [not_lt.1 kept, kept, smaller, smaller.ne, smaller.not_gt, rest]
  · simp [whole, noDust.le]
  · rw [min_eq_right larger.le]
    have below : pos.size - fill.size < dust := by linarith
    have excess : fill.size - pos.size ≠ 0 := (sub_pos.2 larger).ne'
    simp [noDust.le, not_lt.2 below.le, larger, larger.ne', larger.not_gt, excess]

theorem Position.Regular.applyOpenFill {fill : Fill}
    (regular : pos.Regular ∨ (pos.size = 0 ∧ pos.costBasisUsd = 0)) (sized : 0 < fill.size) :
    (pos.applyOpenFill fill).Regular := by
  have grows : 0 < pos.size + fill.size := by
    rcases regular with ⟨holds, -⟩ | ⟨empty, -⟩
    · exact add_pos holds sized
    · rwa [empty, zero_add]
  have cost : pos.costBasisUsd = pos.entryPrice * pos.size := by
    rcases regular with ⟨-, cost⟩ | ⟨empty, free⟩
    · exact cost
    · rw [empty, free, mul_zero]
  refine ⟨grows, ?_⟩
  simp only [Position.applyOpenFill, if_pos grows, div_mul_cancel₀ _ grows.ne', cost, Fill.notionalUsd]

theorem Position.Regular.applyCloseFill {fill : Fill} (regular : pos.Regular)
    (kept : ¬ (pos.applyCloseFill fill).size ≤ dust) : (pos.applyCloseFill fill).Regular := by
  obtain ⟨holds, cost⟩ := regular
  refine ⟨lt_trans (by norm_num [dust]) (not_le.1 kept), ?_⟩
  simp only [Position.applyCloseFill, if_neg (not_le.2 holds), cost]
  field_simp

inductive PortfolioEvent where
  | fill (fill : Fill) (strategySlug : Option String)
  | mark (tokenId : String) (price : ℚ) (moment : Instant)

namespace Portfolio

def step (book : Portfolio) : PortfolioEvent → Portfolio
  | .fill fill strategySlug => book.applyFill fill strategySlug
  | .mark tokenId price moment => book.mark tokenId price moment

/-- Every dollar gained over the initial capital is realised or unrealised profit. -/
def Accounted (book : Portfolio) : Prop :=
  book.equityUsd - book.config.initialCapitalUsd = book.totalPnlUsd

instance (book : Portfolio) : Decidable book.Accounted := by
  unfold Accounted
  infer_instance

/-- The events that keep a portfolio accounted for. A mark always does. -/
def Balanced (book : Portfolio) : PortfolioEvent → Prop
  | .mark _ _ _ => True
  | .fill fill strategySlug =>
    match book.positions.get? (fill.tokenId, fill.side.opposing, strategySlug) with
    | some pos => BalancedClose pos fill
    | none => BalancedOpen (book.scaled fill strategySlug) fill

theorem accounted_iff_gap (book : Portfolio) : book.Accounted ↔ book.gap = 0 := by
  unfold Accounted gap
  exact sub_eq_zero.symm

theorem sidesAgree_step {book : Portfolio} (event : PortfolioEvent) (agree : book.SidesAgree) :
    (book.step event).SidesAgree := by
  cases event with
  | mark tokenId price moment =>
    refine Dict.All.mapValues agree fun key pos side => ?_
    split_ifs
    · exact side
    · exact side
  | fill fill strategySlug =>
    simp only [step, applyFill]
    cases found : book.positions.get? (fill.tokenId, fill.side.opposing, strategySlug) with
    | none =>
      exact Dict.All.set agree (side_scaled agree fill strategySlug)
    | some pos =>
      have side : (pos.applyCloseFill fill).side = fill.side.opposing := by
        have same : (pos.applyCloseFill fill).side = pos.side := by
          unfold Position.applyCloseFill
          split_ifs <;> rfl
        rw [same]
        exact agree.of_get? found
      simp only [applyClosing]
      split_ifs
      · exact Dict.All.erase agree _
      · exact Dict.All.set agree side

/-- From an accounted portfolio a step reaches an accounted one exactly when it is balanced. -/
theorem accounted_step_iff {book : Portfolio} (event : PortfolioEvent) (agree : book.SidesAgree)
    (accounted : book.Accounted) : (book.step event).Accounted ↔ book.Balanced event := by
  rw [accounted_iff_gap] at accounted ⊢
  cases event with
  | mark tokenId price moment => simp [step, gap_mark, accounted, Balanced]
  | fill fill strategySlug =>
    simp only [step, applyFill, Balanced]
    cases found : book.positions.get? (fill.tokenId, fill.side.opposing, strategySlug) with
    | none =>
      simp only [gap_applyOpening, accounted]
      rw [← balancedOpen_iff (side_scaled agree fill strategySlug)]
      constructor <;> intro equation <;> linarith
    | some pos =>
      simp only [gap_applyClosing fill found, accounted]
      rw [← balancedClose_iff book.cashUsd pos fill]
      constructor <;> intro equation <;> linarith

theorem sidesAgree_new (config : PortfolioConfig) : (new config).SidesAgree := Dict.all_empty _

/-- A run of fills and marks keeps equity and profit together throughout exactly when every fill of
it is balanced in the portfolio it meets. -/
theorem accounted_iff_balanced (config : PortfolioConfig) (events : List PortfolioEvent) :
    Always step Accounted (new config) events ↔ Meets step Balanced (new config) events := by
  have start : (new config).Accounted := (accounted_iff_gap _).2 (gap_new config)
  exact always_iff_meets (fun _ event agree => sidesAgree_step event agree)
    (fun _ event agree accounted => accounted_step_iff event agree accounted) (sidesAgree_new config) start

def feeOpening : PortfolioEvent :=
  .fill ⟨"o1", "T", .buy, 1/2, 10, 5/100, 0, 0, none, {}⟩ none

/-- A buy of ten shares, free of fees, and a sell of fifteen at sixty cents. -/
def overClose : List PortfolioEvent :=
  [.fill ⟨"o1", "T", .buy, 1/2, 10, 0, 0, 0, none, {}⟩ none,
   .fill ⟨"o2", "T", .sell, 6/10, 15, 0, 1, 0, none, {}⟩ none]

/-- The fee of an opening fill leaves cash and is no part of the profit; the proceeds of what is sold
beyond the position enter cash and are no part of it either. -/
theorem not_accounted_feeOpening_overClose :
    ¬ Always step Accounted (new {}) [feeOpening] ∧ ¬ Always step Accounted (new {}) overClose := by
  constructor
  · intro always
    exact absurd (always _ (List.prefix_refl _)) (by decide +kernel)
  · intro always
    exact absurd (always _ (List.prefix_refl _)) (by decide +kernel)

end Portfolio

end Callisto.Backtest
