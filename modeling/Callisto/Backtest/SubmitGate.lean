import Callisto.Backtest.Portfolio
import Mathlib.Tactic.Linarith

/-! The pre-trade gate on orders that reduce a position, and on orders that open one too many. -/

namespace Callisto.Backtest.Portfolio

open Callisto.Library

variable {book : Portfolio} {tokenId : String} {side : Side} {price size : ℚ} {strategySlug : Option String}

def exposureWhere (book : Portfolio) (chosen : PositionKey × Position → Bool) : ℚ :=
  ((book.positions.entries.filter chosen).map fun entry => entry.2.exposureUsd).sum

def Reduces (book : Portfolio) (tokenId : String) (side : Side) (size : ℚ) (strategySlug : Option String) : Prop :=
  0 < size ∧ ∃ pos ∈ book.positions.get? (tokenId, side.opposing, strategySlug), size ≤ pos.size

def OpensBeyond (book : Portfolio) (tokenId : String) (side : Side) (strategySlug : Option String) : Prop :=
  book.positions.get? (tokenId, side.opposing, strategySlug) = none ∧ book.positions.get? (tokenId, side, strategySlug) = none ∧
    ∃ limit ∈ book.config.maxOpenPositions, limit ≤ book.positions.entries.length

/-- Each cap leaves room for the notional of the order on top of what is there. -/
structure RoomFor (book : Portfolio) (tokenId : String) (side : Side) (price size : ℚ) (strategySlug : Option String) : Prop where
  cash : side = .buy → max 0 (price * size) ≤ book.cashUsd + gateSlack
  gross : ∀ cap ∈ book.config.maxGrossExposureUsd, book.grossExposureUsd + max 0 (price * size) ≤ cap + gateSlack
  perMarket : ∀ cap ∈ book.config.maxPerMarketNotionalUsd,
    book.exposureWhere (fun entry => entry.1.1 = tokenId) + max 0 (price * size) ≤ cap + gateSlack
  perStrategy : ∀ cap ∈ book.config.maxPerStrategyNotionalUsd, ∀ slug ∈ strategySlug, slug ≠ "" →
    book.exposureWhere (fun entry => entry.2.strategySlug = some slug) + max 0 (price * size) ≤ cap + gateSlack
  openPositions : ∀ limit ∈ book.config.maxOpenPositions,
    book.positions.entries.length < limit ∨ book.positions.get? (tokenId, side, strategySlug) ≠ none

theorem capRefusal_eq_none_iff {cap : Option ℚ} {exposure : ℚ} {refusal : ℚ → ℚ → SubmitRefusal} :
    capRefusal cap exposure refusal = none ↔ ∀ limit ∈ cap, exposure ≤ limit + gateSlack := by
  unfold capRefusal
  cases cap with
  | none => simp
  | some limit =>
    by_cases over_ : limit + gateSlack < exposure
    · simp [over_]
    · simpa [over_] using not_lt.mp over_

theorem canSubmit_eq_none_iff : book.canSubmit tokenId side price size strategySlug = none ↔ book.RoomFor tokenId side price size strategySlug := by
  have cash : (if side = .buy ∧ book.cashUsd + gateSlack < max 0 (price * size) then
      some (SubmitRefusal.insufficientCash book.cashUsd (max 0 (price * size))) else none) = none ↔
        (side = .buy → max 0 (price * size) ≤ book.cashUsd + gateSlack) := by
    rw [ite_eq_right_iff]
    simp only [reduceCtorEq, imp_false, not_and, not_lt]
  have perStrategy : (strategySlug.elim none fun slug =>
      if slug = "" then none
      else capRefusal book.config.maxPerStrategyNotionalUsd
        (book.exposureWhere (fun entry => entry.2.strategySlug = some slug) + max 0 (price * size)) .perStrategyCap) = none ↔
        ∀ cap ∈ book.config.maxPerStrategyNotionalUsd, ∀ slug ∈ strategySlug, slug ≠ "" →
          book.exposureWhere (fun entry => entry.2.strategySlug = some slug) + max 0 (price * size) ≤ cap + gateSlack := by
    cases strategySlug with
    | none => simp
    | some slug =>
      by_cases unnamed : slug = ""
      · simp [unnamed]
      · simp only [Option.elim_some, if_neg unnamed, capRefusal_eq_none_iff, Option.mem_some_iff, forall_eq']
        exact ⟨fun fits cap member _ => fits cap member, fun fits cap member => fits cap member unnamed⟩
  have openPositions : (book.config.maxOpenPositions.bind fun limit =>
      if limit ≤ book.positions.entries.length ∧ book.positions.get? (tokenId, side, strategySlug) = none then
        some SubmitRefusal.maxOpenPositions else none) = none ↔
        ∀ limit ∈ book.config.maxOpenPositions,
          book.positions.entries.length < limit ∨ book.positions.get? (tokenId, side, strategySlug) ≠ none := by
    cases book.config.maxOpenPositions with
    | none => simp
    | some limit =>
      rw [Option.bind_some, ite_eq_right_iff]
      simp only [reduceCtorEq, imp_false, Option.mem_some_iff, forall_eq', not_and_or, not_le, ne_eq]
  unfold canSubmit
  simp only [Option.or_eq_none_iff]
  constructor
  · intro passed
    obtain ⟨first, second, third, fourth, fifth⟩ := passed
    refine ⟨cash.mp first, capRefusal_eq_none_iff.mp second, capRefusal_eq_none_iff.mp third, perStrategy.mp ?_, openPositions.mp fifth⟩
    cases strategySlug with
    | none => rfl
    | some slug => exact fourth
  · intro room
    refine ⟨cash.mpr room.cash, capRefusal_eq_none_iff.mpr room.gross, capRefusal_eq_none_iff.mpr room.perMarket, ?_,
      openPositions.mpr room.openPositions⟩
    have allowed := perStrategy.mpr room.perStrategy
    cases strategySlug with
    | none => rfl
    | some slug => exact allowed

theorem canSubmit_opensBeyond (opens : book.OpensBeyond tokenId side strategySlug) : book.canSubmit tokenId side price size strategySlug ≠ none := by
  intro passed
  have ⟨_, fresh, limit, capped, full⟩ := opens
  cases (canSubmit_eq_none_iff.mp passed).openPositions limit capped with
  | inl below => omega
  | inr known => exact known fresh

/-- The gate lets every reduction through, and no order that opens one key too many, exactly if each cap has room for the reduction. -/
theorem gate_passes_reductions_iff (book : Portfolio) (tokenId : String) (side : Side) (price size : ℚ) (strategySlug : Option String) :
    (book.Reduces tokenId side size strategySlug → book.canSubmit tokenId side price size strategySlug = none) ∧
        (book.OpensBeyond tokenId side strategySlug → book.canSubmit tokenId side price size strategySlug ≠ none) ↔
      (book.Reduces tokenId side size strategySlug → book.RoomFor tokenId side price size strategySlug) := by
  constructor
  · intro gate reduces
    exact canSubmit_eq_none_iff.mp (gate.1 reduces)
  · intro room
    exact ⟨fun reduces => canSubmit_eq_none_iff.mpr (room reduces), canSubmit_opensBeyond⟩

/-- Sixteen shares at one half under a cap of ten dollars on the gross exposure. -/
def longUnderCap : Portfolio :=
  { new { maxGrossExposureUsd := some 10 } with
    positions := Dict.empty.set ("T", .buy, none) { tokenId := "T", side := .buy, entryPrice := 1 / 2, size := 16, costBasisUsd := 8 } }

/-- The sale of the whole position is refused for the exposure that it would end. -/
theorem longUnderCap_sale_refused :
    ¬ ((longUnderCap.Reduces "T" .sell 16 none → longUnderCap.canSubmit "T" .sell (1 / 2) 16 none = none) ∧
      (longUnderCap.OpensBeyond "T" .sell none → longUnderCap.canSubmit "T" .sell (1 / 2) 16 none ≠ none)) := by
  intro gate
  have reduces : longUnderCap.Reduces "T" .sell 16 none :=
    ⟨by norm_num, _, rfl, le_rfl⟩
  have passed := gate.1 reduces
  revert passed
  decide +kernel

end Callisto.Backtest.Portfolio
