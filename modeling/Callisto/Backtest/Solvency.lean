import Callisto.Backtest.EngineSteps
import Callisto.Backtest.Reserves
import Callisto.Backtest.SubmitGate
import Callisto.Library.Simulation

/-! Cash and gross exposure over a whole run: as long as the buys that the gate lets through come up one at a time, and nothing
is sold short, the cash stays above zero and the exposure below its cap. -/

namespace Callisto.Backtest

open Callisto.Library Callisto.Library.Runs

structure Position.Long (key : PositionKey) (pos : Position) : Prop where
  keyed : key.2.1 = .buy
  side : pos.side = .buy
  sized : 0 ≤ pos.size
  priced : 0 ≤ pos.entryPrice
  basis : 0 ≤ pos.costBasisUsd
  marked : ∀ price ∈ pos.lastMarkPrice, 0 ≤ price

namespace Portfolio

variable {book : Portfolio} {key : PositionKey} {pos : Position} {fill : Fill}

def AllLong (book : Portfolio) : Prop := book.positions.All Position.Long

def FeesBelowGains (book : Portfolio) : Prop := ∀ fees ∈ book.config.feeModel, fees.resolutionFeeRate ≤ 1

def entryExposureUsd (book : Portfolio) : ℚ := book.positions.sumBy fun pos => pos.size * pos.entryPrice

/-- The cash is not negative, and the exposure at entry is within the cap. -/
structure Sound (book : Portfolio) : Prop where
  cash : 0 ≤ book.cashUsd
  exposure : ∀ cap ∈ book.config.maxGrossExposureUsd, book.entryExposureUsd ≤ max 0 cap

theorem closeResolutionFee_le (fees : book.FeesBelowGains) (gained : ℚ) : closeResolutionFee book.config gained ≤ max 0 gained := by
  unfold closeResolutionFee
  cases model : book.config.feeModel with
  | none => exact le_max_left _ _
  | some rates =>
    simp only
    split_ifs with gains
    · have rate : max 0 rates.resolutionFeeRate ≤ 1 := max_le zero_le_one (fees rates model)
      unfold FeeModel.resolutionFee
      rw [if_neg (not_le.2 gains)]
      calc gained * max 0 rates.resolutionFeeRate ≤ gained * 1 := mul_le_mul_of_nonneg_left rate gains.le
        _ = gained := mul_one gained
        _ ≤ max 0 gained := le_max_right _ _
    · exact le_max_left _ _

/-- A sale out of a long position leaves a long position that has cost less, and its gain is no more than its proceeds
without its fee. -/
theorem long_applyCloseFill (long : pos.Long key) (positive : 0 < fill.size) (priced : 0 ≤ fill.price) :
    (pos.applyCloseFill fill).Long key ∧ (pos.applyCloseFill fill).entryPrice = pos.entryPrice ∧
      (pos.applyCloseFill fill).size ≤ pos.size ∧
        (pos.applyCloseFill fill).realizedPnlUsd - pos.realizedPnlUsd ≤ max 0 (fill.notionalUsd - fill.feeUsd) := by
  unfold Position.applyCloseFill
  by_cases empty : pos.size ≤ 0
  · rw [if_pos empty]
    refine ⟨long, rfl, le_rfl, ?_⟩
    rw [sub_self]
    exact le_max_left _ _
  · rw [if_neg empty]
    have holds : 0 < pos.size := not_le.1 empty
    have taken : min fill.size pos.size ≤ pos.size := min_le_right _ _
    have some_ : 0 ≤ min fill.size pos.size := le_min positive.le holds.le
    have part : min fill.size pos.size / pos.size ≤ 1 := (div_le_one holds).2 taken
    have chunk : 0 ≤ pos.costBasisUsd * (min fill.size pos.size / pos.size) := mul_nonneg long.basis (div_nonneg some_ holds.le)
    have basis : pos.costBasisUsd * (min fill.size pos.size / pos.size) ≤ pos.costBasisUsd := mul_le_of_le_one_right long.basis part
    have proceeds : fill.price * min fill.size pos.size ≤ fill.notionalUsd := mul_le_mul_of_nonneg_left (min_le_left _ _) priced
    refine ⟨⟨long.keyed, long.side, sub_nonneg.2 taken, long.priced, sub_nonneg.2 basis, long.marked⟩, rfl, ?_, ?_⟩
    · simp only
      linarith
    · simp only [long.side]
      exact le_trans (by linarith) (le_max_right _ _)

theorem cash_applyClosing (fees : book.FeesBelowGains) (long : pos.Long key) {closed : Position} (side : closed.side = .buy)
    (positive : 0 < fill.size) (priced : 0 ≤ fill.price) (paid : fill.feeUsd ≤ fill.notionalUsd) :
    book.cashUsd ≤ cashAfterClose book.cashUsd closed fill -
      closeResolutionFee book.config ((pos.applyCloseFill fill).realizedPnlUsd - pos.realizedPnlUsd) := by
  obtain ⟨-, -, -, gain⟩ := long_applyCloseFill long positive priced
  have fee := closeResolutionFee_le fees ((pos.applyCloseFill fill).realizedPnlUsd - pos.realizedPnlUsd)
  have proceeds : 0 ≤ fill.notionalUsd - fill.feeUsd := sub_nonneg.2 paid
  rw [max_eq_right proceeds] at gain
  have bound := max_le proceeds gain
  unfold cashAfterClose
  simp only [side]
  linarith

structure Spends (book next : Portfolio) (outlay charge : ℚ) : Prop where
  config : next.config = book.config
  long : next.AllLong
  cash : book.cashUsd - (outlay + charge) ≤ next.cashUsd
  exposure : next.entryExposureUsd ≤ book.entryExposureUsd + outlay

theorem Spends.feesBelowGains {next : Portfolio} {outlay charge : ℚ} (spends : book.Spends next outlay charge)
    (fees : book.FeesBelowGains) : next.FeesBelowGains := by
  unfold FeesBelowGains
  rw [spends.config]
  exact fees

theorem AllLong.applyClosing (long : book.AllLong) (fees : book.FeesBelowGains) (found : book.positions.get? key = some pos)
    (positive : 0 < fill.size) (priced : 0 ≤ fill.price) (paid : fill.feeUsd ≤ fill.notionalUsd) :
    book.Spends (book.applyClosing key pos fill) 0 0 := by
  have held := Dict.All.of_get? long found
  obtain ⟨still, entry, smaller, -⟩ := long_applyCloseFill held positive priced
  have cash := cash_applyClosing fees held still.side positive priced paid
  have worth : (pos.applyCloseFill fill).size * (pos.applyCloseFill fill).entryPrice ≤ pos.size * pos.entryPrice := by
    rw [entry]
    exact mul_le_mul_of_nonneg_right smaller held.priced
  have gone : 0 ≤ pos.size * pos.entryPrice := mul_nonneg held.sized held.priced
  unfold Portfolio.applyClosing
  by_cases spent : (pos.applyCloseFill fill).size ≤ dust
  · simp only [if_pos spent]
    refine ⟨rfl, Dict.All.erase long key, by simp only; linarith, ?_⟩
    unfold entryExposureUsd
    simp only
    rw [Dict.sumBy_erase, found]
    simp only [Option.elim_some]
    linarith
  · simp only [if_neg spent]
    refine ⟨rfl, Dict.All.set long ⟨still.keyed, still.side, still.sized, still.priced, still.basis, still.marked⟩,
      by simp only; linarith, ?_⟩
    unfold entryExposureUsd
    simp only
    rw [Dict.sumBy_set, found]
    simp only [Option.elim_some]
    linarith

theorem AllLong.applyOpening (long : book.AllLong) (slug : Option String) (buys : fill.side = .buy) (positive : 0 < fill.size)
    (priced : 0 ≤ fill.price) : book.Spends (book.applyOpening fill slug) fill.outlay fill.charge := by
  have notional : 0 ≤ fill.notionalUsd := mul_nonneg priced positive.le
  have outlay : fill.outlay = fill.notionalUsd := by
    simp only [Fill.outlay, buys]
    exact max_eq_right notional
  have charged : fill.feeUsd ≤ fill.charge := by
    unfold Fill.charge
    rw [buys]
    exact le_max_right _ _
  obtain ⟨pos, opened, held, weight⟩ : ∃ pos : Position, (book.positions.get? (fill.tokenId, fill.side, slug)).getD
      { tokenId := fill.tokenId, side := fill.side, strategySlug := slug } = pos ∧ pos.Long (fill.tokenId, fill.side, slug) ∧
        (book.positions.get? (fill.tokenId, fill.side, slug)).elim 0 (fun pos => pos.size * pos.entryPrice) =
          pos.size * pos.entryPrice := by
    cases found : book.positions.get? (fill.tokenId, fill.side, slug) with
    | none =>
      exact ⟨_, rfl, ⟨buys, buys, le_rfl, le_rfl, le_rfl, fun _ missing => by cases missing⟩, by
        simp only [Option.elim_none]
        norm_num⟩
    | some pos => exact ⟨pos, rfl, Dict.All.of_get? long found, rfl⟩
  have grown : 0 < pos.size + fill.size := by linarith [held.sized]
  have entry : (pos.applyOpenFill fill).size * (pos.applyOpenFill fill).entryPrice = pos.size * pos.entryPrice + fill.notionalUsd := by
    unfold Position.applyOpenFill
    simp only [if_pos grown]
    rw [mul_div_cancel₀ _ grown.ne', Fill.notionalUsd]
    ring
  have averaged : 0 ≤ (pos.applyOpenFill fill).entryPrice := by
    unfold Position.applyOpenFill
    simp only [if_pos grown]
    exact div_nonneg (add_nonneg (mul_nonneg held.priced held.sized) (mul_nonneg priced positive.le)) grown.le
  unfold Portfolio.applyOpening
  simp only [opened]
  refine ⟨rfl, Dict.All.set long ⟨held.keyed, held.side, grown.le, averaged, add_nonneg held.basis notional, held.marked⟩, ?_, ?_⟩
  · simp only [buys]
    linarith
  · unfold entryExposureUsd
    simp only
    rw [Dict.sumBy_set, weight, entry, outlay]
    linarith

theorem AllLong.applyFill (long : book.AllLong) (fees : book.FeesBelowGains) (slug : Option String) (positive : 0 < fill.size)
    (priced : 0 ≤ fill.price) (covered : fill.side = .sell →
      fill.feeUsd ≤ fill.notionalUsd ∧ (book.positions.get? (fill.tokenId, .buy, slug)).isSome = true) :
    book.Spends (book.applyFill fill slug) fill.outlay fill.charge := by
  unfold Portfolio.applyFill
  cases side : fill.side with
  | buy =>
    have unsold : book.positions.get? (fill.tokenId, .sell, slug) = none := by
      cases found : book.positions.get? (fill.tokenId, .sell, slug) with
      | none => rfl
      | some pos => exact absurd (Dict.All.of_get? long found).keyed (by simp)
    simp only [Side.opposing, unsold]
    exact long.applyOpening slug side positive priced
  | sell =>
    obtain ⟨paid, held⟩ := covered side
    obtain ⟨pos, found⟩ := Option.isSome_iff_exists.1 held
    simp only [Side.opposing, found]
    have free : fill.outlay = 0 ∧ fill.charge = 0 := by
      unfold Fill.outlay Fill.charge
      rw [side]
      exact ⟨rfl, rfl⟩
    rw [free.1, free.2]
    exact long.applyClosing fees found positive priced paid

theorem AllLong.closePositionAt (long : book.AllLong) (fees : book.FeesBelowGains) (held : pos.Long key) (found : book.positions.get? key = some pos)
    (large : 0 < pos.size) {price : ℚ} (priced : 0 ≤ price) (moment : Instant) (isSettlement : Bool) :
    book.Spends (book.closePositionAt key pos price moment isSettlement) 0 0 := by
  have closing : ∀ fill : Fill, fill.size = pos.size → fill.price = price → fill.feeUsd = 0 →
      book.cashUsd ≤ cashAfterClose book.cashUsd pos fill -
        closeResolutionFee book.config ((pos.applyCloseFill fill).realizedPnlUsd - pos.realizedPnlUsd) := by
    intro fill size at_ free
    refine cash_applyClosing fees held held.side (by rw [size]; exact large) (by rw [at_]; exact priced) ?_
    rw [free, Fill.notionalUsd, at_, size]
    exact mul_nonneg priced large.le
  have gone : 0 ≤ pos.size * pos.entryPrice := mul_nonneg held.sized held.priced
  refine ⟨rfl, Dict.All.erase long key, ?_, ?_⟩
  · rw [add_zero, sub_zero]
    exact closing _ rfl rfl rfl
  · unfold entryExposureUsd Portfolio.closePositionAt
    simp only
    rw [Dict.sumBy_erase, found]
    simp only [Option.elim_some]
    linarith

theorem Spends.trans {next last : Portfolio} {outlay charge : ℚ} (first : book.Spends next 0 0) (second : next.Spends last outlay charge) :
    book.Spends last outlay charge := by
  refine ⟨second.config.trans first.config, second.long, ?_, ?_⟩
  · linarith [first.cash, second.cash]
  · linarith [first.exposure, second.exposure]

theorem AllLong.refl (long : book.AllLong) : book.Spends book 0 0 := ⟨rfl, long, by linarith, by linarith⟩

theorem AllLong.mark (long : book.AllLong) (tokenId : String) {price : ℚ} (priced : 0 ≤ price) (moment : Instant) :
    book.Spends (book.mark tokenId price moment) 0 0 := by
  have exposure : (book.mark tokenId price moment).entryExposureUsd = book.entryExposureUsd := by
    unfold entryExposureUsd Portfolio.mark
    apply Dict.sumBy_mapValues
    intro key pos
    split_ifs
    · rfl
    · rfl
  refine ⟨rfl, Dict.All.mapValues long fun key pos held => ?_, ?_, ?_⟩
  · split_ifs
    · exact ⟨held.keyed, held.side, held.sized, held.priced, held.basis, fun other known => by cases known; exact priced⟩
    · exact held
  · show book.cashUsd - (0 + 0) ≤ book.cashUsd
    linarith
  · rw [exposure, add_zero]

end Portfolio

namespace BacktestEngine

variable {σ π ρ : Type} {config : BacktestConfig σ π ρ} {engine next : BacktestEngine σ ρ} {snapshot : BookSnapshot}
  {budget : String → ℚ}

/-- The cash covers what the live orders can take, and the exposure leaves room for them below its cap. -/
structure Covers (budget : String → ℚ) (engine : BacktestEngine σ ρ) : Prop where
  cash : engine.matching.cashReserved budget ≤ engine.portfolio.cashUsd
  exposure : ∀ cap ∈ engine.portfolio.config.maxGrossExposureUsd,
    engine.portfolio.entryExposureUsd + engine.matching.exposureReserved ≤ max 0 cap

/-- A fill at no negative price, that sells only out of a long position, and for more than its fee. -/
def Allowed (engine : BacktestEngine σ ρ) (fill : Fill) : Prop :=
  0 ≤ fill.price ∧ (fill.side = .sell → fill.feeUsd ≤ fill.notionalUsd ∧ ∀ order ∈ engine.matching.orders.get? fill.orderId,
    (engine.portfolio.positions.get? (fill.tokenId, .buy, order.strategySlug)).isSome = true)

theorem sound_fills {fills : List Fill} (long : engine.portfolio.AllLong) (fees : engine.portfolio.FeesBelowGains)
    (positive : ∀ fill ∈ fills, 0 < fill.size) (allowed : Meets (applyFill config) Allowed engine fills) {cash exposure : ℚ}
    (cashKept : 0 ≤ cash) (exposureKept : 0 ≤ exposure)
    (affords : cash + (fills.map fun fill => fill.outlay + fill.charge).sum ≤ engine.portfolio.cashUsd)
    (fits : ∀ cap ∈ engine.portfolio.config.maxGrossExposureUsd,
      engine.portfolio.entryExposureUsd + (exposure + (fills.map Fill.outlay).sum) ≤ max 0 cap) :
    Always (applyFill config) (fun engine => engine.portfolio.Sound) engine fills ∧
      (run (applyFill config) engine fills).portfolio.AllLong ∧
        (run (applyFill config) engine fills).portfolio.config = engine.portfolio.config ∧
          cash ≤ (run (applyFill config) engine fills).portfolio.cashUsd ∧
            ∀ cap ∈ engine.portfolio.config.maxGrossExposureUsd,
              (run (applyFill config) engine fills).portfolio.entryExposureUsd + exposure ≤ max 0 cap := by
  have costs : ∀ fills : List Fill, 0 ≤ (fills.map fun fill => fill.outlay + fill.charge).sum ∧ 0 ≤ (fills.map Fill.outlay).sum := by
    intro fills
    constructor
    · apply List.sum_nonneg
      intro amount member
      obtain ⟨fill, -, rfl⟩ := List.mem_map.1 member
      exact add_nonneg fill.outlay_nonneg fill.charge_nonneg
    · apply List.sum_nonneg
      intro amount member
      obtain ⟨fill, -, rfl⟩ := List.mem_map.1 member
      exact fill.outlay_nonneg
  induction fills generalizing engine with
  | nil =>
    simp only [List.map_nil, List.sum_nil, add_zero] at affords fits
    have sound : engine.portfolio.Sound := ⟨cashKept.trans affords, fun cap capped => by linarith [fits cap capped]⟩
    refine ⟨fun first isPrefix => ?_, long, rfl, affords, fits⟩
    rw [List.prefix_nil.1 isPrefix]
    exact sound
  | cons fill rest ih =>
    rw [List.map_cons, List.sum_cons] at affords
    simp only [List.map_cons, List.sum_cons] at fits
    have later := costs rest
    have sound : engine.portfolio.Sound :=
      ⟨by linarith [fill.outlay_nonneg, fill.charge_nonneg], fun cap capped => by linarith [fits cap capped, fill.outlay_nonneg]⟩
    have spends : engine.portfolio.Spends (applyFill config engine fill).portfolio fill.outlay fill.charge := by
      obtain ⟨priced, covered⟩ := allowed.1
      unfold applyFill
      cases found : engine.matching.orders.get? fill.orderId with
      | none =>
        exact ⟨rfl, long, by simp only; linarith [fill.outlay_nonneg, fill.charge_nonneg], by simp only; linarith [fill.outlay_nonneg]⟩
      | some order =>
        exact long.applyFill fees order.strategySlug (positive fill List.mem_cons_self) priced fun sells =>
          ⟨(covered sells).1, (covered sells).2 order found⟩
    have goes := ih spends.long (spends.feesBelowGains fees) (fun other member => positive other (List.mem_cons_of_mem _ member)) allowed.2
      (by linarith [spends.cash]) (by
        intro cap capped
        rw [spends.config] at capped
        linarith [fits cap capped, spends.exposure])
    obtain ⟨always, longLast, configLast, cashLast, exposureLast⟩ := goes
    refine ⟨always_cons.2 ⟨sound, always⟩, longLast, configLast.trans spends.config, cashLast, ?_⟩
    rwa [spends.config] at exposureLast

theorem spends_closings {op : BacktestEngine σ ρ → PositionKey × Position → BacktestEngine σ ρ} {entries : List (PositionKey × Position)}
    (closes : ∀ engine, ∀ entry ∈ entries, (op engine entry).portfolio = engine.portfolio ∨ ∃ price moment isSettlement,
      0 ≤ price ∧ 0 < entry.2.size ∧
        (op engine entry).portfolio = engine.portfolio.closePositionAt entry.1 entry.2 price moment isSettlement)
    (nodup : (entries.map Prod.fst).Nodup) (long : engine.portfolio.AllLong) (fees : engine.portfolio.FeesBelowGains)
    (held : ∀ entry ∈ entries, engine.portfolio.positions.get? entry.1 = some entry.2) :
    engine.portfolio.Spends (entries.foldl op engine).portfolio 0 0 := by
  induction entries generalizing engine with
  | nil => exact long.refl
  | cons entry rest ih =>
    obtain ⟨fresh, nodupRest⟩ := List.nodup_cons.1 nodup
    have found := held entry List.mem_cons_self
    have head : engine.portfolio.Spends (op engine entry).portfolio 0 0 ∧
        ∀ other ∈ rest, (op engine entry).portfolio.positions.get? other.1 = some other.2 := by
      rcases closes engine entry List.mem_cons_self with same | ⟨price, moment, isSettlement, priced, large, same⟩
      · rw [same]
        exact ⟨long.refl, fun other member => held other (List.mem_cons_of_mem _ member)⟩
      · rw [same]
        refine ⟨long.closePositionAt fees (Dict.All.of_get? long found) found large priced moment isSettlement, fun other member => ?_⟩
        have apart : entry.1 ≠ other.1 := fun equal => fresh (List.mem_map.2 ⟨other, member, equal.symm⟩)
        show (engine.portfolio.positions.erase entry.1).get? other.1 = some other.2
        rw [Dict.get?_erase, if_neg apart]
        exact held other (List.mem_cons_of_mem _ member)
    have tail := ih (fun start other member => closes start other (List.mem_cons_of_mem _ member)) nodupRest head.1.long
      (head.1.feesBelowGains fees) head.2
    exact head.1.trans tail

def SettlesAbove (config : BacktestConfig σ π ρ) : Prop :=
  config.settlements.All fun _ settlement => ∀ price ∈ settlement.settlePrice, 0 ≤ price

theorem spends_settleToken (settles : SettlesAbove config) (long : engine.portfolio.AllLong) (fees : engine.portfolio.FeesBelowGains)
    (now : Instant) (tokenId : String) : engine.portfolio.Spends (settleToken config now engine tokenId).portfolio 0 0 := by
  unfold settleToken
  cases known : config.settlements.get? tokenId with
  | none => exact long.refl
  | some settlement =>
    simp only
    cases priced : settlement.settlePrice with
    | none => exact long.refl
    | some price =>
      have above : 0 ≤ price := settles (tokenId, settlement) (Dict.mem_of_find known) price priced
      apply spends_closings _ engine.portfolio.positions.nodup long fees fun entry member => Dict.get?_of_mem member
      intro start entry _
      unfold settlePosition
      by_cases passed : entry.1.1 ≠ tokenId ∨ entry.2.size ≤ dust
      · rw [if_pos passed]
        exact Or.inl rfl
      · rw [if_neg passed]
        have large : dust < entry.2.size := not_le.1 (not_or.1 passed).2
        have grain : 0 < dust := by norm_num [dust]
        exact Or.inr ⟨price, _, true, above, grain.trans large, rfl⟩

theorem spends_settleDue (settles : SettlesAbove config) (long : engine.portfolio.AllLong) (fees : engine.portfolio.FeesBelowGains)
    (now : Instant) : engine.portfolio.Spends (settleDue config now engine).portfolio 0 0 := by
  have each : ∀ (schedule : List (Instant × String)) (start : BacktestEngine σ ρ), start.portfolio.AllLong →
      start.portfolio.FeesBelowGains → start.portfolio.Spends (settleSchedule config now schedule start).portfolio 0 0 := by
    intro schedule
    induction schedule with
    | nil => exact fun start long _ => long.refl
    | cons entry rest ih =>
      obtain ⟨due, tokenId⟩ := entry
      intro start long fees
      simp only [settleSchedule]
      split_ifs
      · have head := spends_settleToken settles long fees now tokenId
        exact head.trans (ih _ head.long (head.feesBelowGains fees))
      · exact long.refl
  exact each engine.resolutionSchedule engine long fees

theorem sound_finish (settles : SettlesAbove config) (long : engine.portfolio.AllLong) (fees : engine.portfolio.FeesBelowGains)
    (sound : engine.portfolio.Sound) : (finish config engine).portfolio.Sound := by
  unfold finish
  split_ifs
  · have closed : engine.portfolio.Spends
        (engine.portfolio.positions.entries.foldl (closeAtEnd config engine.matching.now) engine).portfolio 0 0 := by
      apply spends_closings _ engine.portfolio.positions.nodup long fees fun entry member => Dict.get?_of_mem member
      intro start entry member
      have held := long entry member
      obtain ⟨key, pos⟩ := entry
      unfold closeAtEnd
      by_cases spent : pos.size ≤ dust
      · exact Or.inl (by simp only [if_pos spent])
      · simp only [if_neg spent]
        have grain : 0 < dust := by norm_num [dust]
        have large : 0 < pos.size := grain.trans (not_le.1 spent)
        have priced : 0 ≤ pos.exposurePrice := by
          unfold Position.exposurePrice
          split
          · split_ifs
            · exact held.priced
            · exact held.marked _ (by assumption)
          · exact held.priced
        split
        · rename_i price due resolved
          obtain ⟨settlement, known, chosen⟩ := Option.bind_eq_some_iff.1 resolved
          obtain ⟨settled, priceKnown, rest⟩ := Option.bind_eq_some_iff.1 chosen
          obtain ⟨moment, -, pair⟩ := Option.map_eq_some_iff.1 rest
          cases pair
          exact Or.inr ⟨price, due, true, settles (pos.tokenId, settlement) (Dict.mem_of_find known) price priceKnown, large, rfl⟩
        · exact Or.inr ⟨pos.exposurePrice, _, false, priced, large, rfl⟩
    refine ⟨?_, fun cap capped => ?_⟩
    · show 0 ≤ (engine.portfolio.positions.entries.foldl (closeAtEnd config engine.matching.now) engine).portfolio.cashUsd
      linarith [closed.cash, sound.cash]
    · show (engine.portfolio.positions.entries.foldl (closeAtEnd config engine.matching.now) engine).portfolio.entryExposureUsd ≤ max 0 cap
      have capBefore : cap ∈ engine.portfolio.config.maxGrossExposureUsd := by
        rw [← closed.config]
        exact capped
      linarith [closed.exposure, sound.exposure cap capBefore]
  · exact sound

def entryId (config : BacktestConfig σ π ρ) (engine : BacktestEngine σ ρ) (intent : TradeIntent) : String :=
  if intent.intentId = "" then config.makeOrderId engine.idsMade else intent.intentId

/-- The gate lets a buy through only while no other is live, and the venue does not round its limit up; where its size at the limit
passes the gate's comparisons, the cash has room for its fees as well, and the exposure at entry is within the cap. -/
def ComesAlone (config : BacktestConfig σ π ρ) (budget : String → ℚ) (engine : BacktestEngine σ ρ) (intent : TradeIntent) : Prop :=
  intent.side = .buy →
    (engine.portfolio.canSubmit intent.tokenId intent.side intent.limitPrice intent.size intent.strategySlug = none →
      engine.matching.NoBuyLive) ∧
    config.matching.rules.roundPrice intent.limitPrice .buy ≤ intent.limitPrice ∧
    (max 0 (intent.limitPrice * intent.size) ≤ engine.portfolio.cashUsd + Portfolio.gateSlack →
      max 0 (intent.limitPrice * intent.size) + max 0 (budget (entryId config engine intent)) ≤ engine.portfolio.cashUsd) ∧
    ∀ cap ∈ engine.portfolio.config.maxGrossExposureUsd,
      engine.portfolio.grossExposureUsd + max 0 (intent.limitPrice * intent.size) ≤ cap + Portfolio.gateSlack →
        engine.portfolio.entryExposureUsd + max 0 (intent.limitPrice * intent.size) ≤ max 0 cap

/-- Every intent that is due comes up as `ComesAlone` says, in the state that those before it have left. -/
def DrainsAlone (config : BacktestConfig σ π ρ) (budget : String → ℚ) (now : Instant) : List TradeIntent → BacktestEngine σ ρ → Prop
  | [], _ => True
  | intent :: rest, engine => intent.emittedAt ≤ now →
      ComesAlone config budget engine intent ∧ OnOk (submitEntry config engine intent) (DrainsAlone config budget now rest)

/-- What keeps a run solvent at a snapshot: buys come up alone and are filled within their limits, their fees within what is set
aside for them, and nothing is sold short. -/
def WithinReserves (config : BacktestConfig σ π ρ) (budget : String → ℚ) (engine : BacktestEngine σ ρ) (snapshot : BookSnapshot) : Prop :=
  (∀ mid ∈ snapshot.mid, 0 ≤ mid) ∧ ((settleDue config snapshot.observedAt engine).involved snapshot = true →
    DrainsAlone config budget snapshot.observedAt (settleDue config snapshot.observedAt engine).pendingIntents
      (settleDue config snapshot.observedAt engine) ∧
    OnOk (drainIntents config snapshot.observedAt (settleDue config snapshot.observedAt engine).pendingIntents
      (settleDue config snapshot.observedAt engine)) fun drained =>
        OnOk (drained.matching.advanceTo config.matching snapshot) fun result =>
          result.1.WithinLimits result.2 ∧ result.1.WithinBudgets budget ∧
            Meets (applyFill config) Allowed { drained with matching := result.1 } result.2)

instance (engine : BacktestEngine σ ρ) (fill : Fill) : Decidable (Allowed engine fill) := by
  unfold Allowed
  infer_instance

instance (config : BacktestConfig σ π ρ) (budget : String → ℚ) (engine : BacktestEngine σ ρ) (intent : TradeIntent) :
    Decidable (ComesAlone config budget engine intent) := by
  unfold ComesAlone
  infer_instance

instance decidableDrains (config : BacktestConfig σ π ρ) (budget : String → ℚ) (now : Instant) :
    ∀ (intents : List TradeIntent) (engine : BacktestEngine σ ρ), Decidable (DrainsAlone config budget now intents engine)
  | [], _ => isTrue trivial
  | intent :: rest, engine =>
    have := decidableDrains config budget now rest
    inferInstanceAs (Decidable (intent.emittedAt ≤ now →
      ComesAlone config budget engine intent ∧ OnOk (submitEntry config engine intent) (DrainsAlone config budget now rest)))

instance (config : BacktestConfig σ π ρ) (budget : String → ℚ) (engine : BacktestEngine σ ρ) (snapshot : BookSnapshot) :
    Decidable (WithinReserves config budget engine snapshot) := by
  unfold WithinReserves
  infer_instance

/-- The portfolio is sound while the fills of a snapshot are applied, one after the other. -/
def SoundThroughout (config : BacktestConfig σ π ρ) (engine : BacktestEngine σ ρ) (snapshot : BookSnapshot) : Prop :=
  (settleDue config snapshot.observedAt engine).portfolio.Sound ∧ ((settleDue config snapshot.observedAt engine).involved snapshot = true →
    OnOk (drainIntents config snapshot.observedAt (settleDue config snapshot.observedAt engine).pendingIntents
      (settleDue config snapshot.observedAt engine)) fun drained =>
        OnOk (drained.matching.advanceTo config.matching snapshot) fun result =>
          Always (applyFill config) (fun engine => engine.portfolio.Sound) { drained with matching := result.1 } result.2)

structure Solvent (config : BacktestConfig σ π ρ) (budget : String → ℚ) (engine : BacktestEngine σ ρ) : Prop where
  audited : engine.matching.Audited False engine.matching.allFills
  config : engine.portfolio.config = config.portfolioConfig
  long : engine.portfolio.AllLong
  covers : engine.Covers budget

theorem Covers.sound (covers : engine.Covers budget) : engine.portfolio.Sound := by
  have cash : 0 ≤ engine.matching.cashReserved budget := Dict.sumBy_nonneg fun order => order.cashReserve_nonneg budget
  have exposure : 0 ≤ engine.matching.exposureReserved := Dict.sumBy_nonneg fun order => order.exposureReserve_nonneg
  exact ⟨cash.trans covers.cash, fun cap capped => by linarith [covers.exposure cap capped]⟩

theorem Covers.spends (covers : engine.Covers budget) (matching : next.matching = engine.matching)
    (spends : engine.portfolio.Spends next.portfolio 0 0) : next.Covers budget := by
  refine ⟨?_, fun cap capped => ?_⟩
  · rw [matching]
    linarith [covers.cash, spends.cash]
  · rw [spends.config] at capped
    rw [matching]
    linarith [covers.exposure cap capped, spends.exposure]

theorem Covers.sells (covers : engine.Covers budget) (portfolio : next.portfolio = engine.portfolio)
    (sells : Relation.ReflTransGen (MatchingEngine.Entry config.matching fun order => order.side = .sell) engine.matching next.matching) :
    next.Covers budget := by
  have each : ∀ last, Relation.ReflTransGen (MatchingEngine.Entry config.matching fun order => order.side = .sell) engine.matching last →
      last.cashReserved budget ≤ engine.matching.cashReserved budget ∧ last.exposureReserved ≤ engine.matching.exposureReserved := by
    intro last reached
    induction reached with
    | refl => exact ⟨le_rfl, le_rfl⟩
    | tail _ entry ih =>
      obtain ⟨order, latency, sells, done⟩ := entry
      have apart : order.side = .buy → config.matching.rules.roundPrice order.price order.side ≤ order.price := fun buys => by
        rw [sells] at buys
        cases buys
      have cash := @MatchingEngine.cashReserved_submit _ _ _ budget order latency done apart
      have exposure := MatchingEngine.exposureReserved_submit done apart
      simp only [NewOrder.asked, NewOrder.askedFees, sells, add_zero] at cash exposure
      exact ⟨cash.trans ih.1, exposure.trans ih.2⟩
  obtain ⟨cash, exposure⟩ := each next.matching sells
  refine ⟨?_, fun cap capped => ?_⟩
  · rw [portfolio]
    exact cash.trans covers.cash
  · rw [portfolio] at capped ⊢
    linarith [covers.exposure cap capped]

theorem Covers.submitEntry (covers : engine.Covers budget) {intent : TradeIntent} (alone : ComesAlone config budget engine intent)
    (done : submitEntry config engine intent = .ok next) : next.Covers budget := by
  unfold BacktestEngine.submitEntry at done
  cases gate : engine.portfolio.canSubmit intent.tokenId intent.side intent.limitPrice intent.size intent.strategySlug with
  | some refusal =>
    rw [gate] at done
    cases done
    exact covers
  | none =>
    rw [gate] at done
    obtain ⟨order, latency, result, portfolio, side, price, size, named⟩ : ∃ order latency,
        engine.matching.submit config.matching order latency = .ok next.matching ∧ next.portfolio = engine.portfolio ∧
          order.side = intent.side ∧ order.price = intent.limitPrice ∧ order.size = intent.size ∧
            order.orderId = entryId config engine intent := by
      unfold entryId
      simp only at done
      split_ifs at done ⊢ with unnamed
      · obtain ⟨latency, result, portfolio, -⟩ := submit_spec done
        exact ⟨_, latency, result, portfolio, rfl, rfl, rfl, rfl⟩
      · obtain ⟨latency, result, portfolio, -⟩ := submit_spec done
        exact ⟨_, latency, result, portfolio, rfl, rfl, rfl, rfl⟩
    cases towards : intent.side with
    | sell =>
      rw [towards] at side
      exact covers.sells portfolio (.single ⟨order, latency, side, result⟩)
    | buy =>
      obtain ⟨lone, grid, fees, exposure⟩ := alone towards
      have room := Portfolio.canSubmit_eq_none_iff.1 gate
      obtain ⟨noCash, noExposure⟩ := (lone gate).reserved budget
      rw [towards] at side
      have limit : order.side = .buy → config.matching.rules.roundPrice order.price order.side ≤ order.price := fun _ => by
        rw [side, price]
        exact grid
      have cashAfter := @MatchingEngine.cashReserved_submit _ _ _ budget order latency result limit
      have exposureAfter := MatchingEngine.exposureReserved_submit result limit
      simp only [NewOrder.asked, NewOrder.askedFees, side, price, size, named, noCash, noExposure, zero_add] at cashAfter exposureAfter
      refine ⟨?_, fun cap capped => ?_⟩
      · rw [portfolio]
        exact cashAfter.trans (fees (room.cash towards))
      · rw [portfolio] at capped ⊢
        linarith [exposure cap capped (room.gross cap capped)]

theorem Covers.drainIntents {intents : List TradeIntent} {now : Instant} (covers : engine.Covers budget)
    (alone : DrainsAlone config budget now intents engine) (done : drainIntents config now intents engine = .ok next) :
    next.Covers budget := by
  induction intents generalizing engine with
  | nil =>
    cases done
    exact ⟨covers.cash, covers.exposure⟩
  | cons intent rest ih =>
    simp only [BacktestEngine.drainIntents] at done
    split_ifs at done with due
    · obtain ⟨first, later⟩ := alone due
      cases result : BacktestEngine.submitEntry config engine intent with
      | error raised =>
        rw [result] at done
        cases done
      | ok entered =>
        rw [result] at done later
        exact ih (covers.submitEntry first result) later done
    · cases done
      exact ⟨covers.cash, covers.exposure⟩

theorem Entered.audited {allowed : NewOrder → Prop} (entered : Entered config allowed engine next)
    (audited : engine.matching.Audited False engine.matching.allFills) :
    next.matching.Audited False next.matching.allFills := by
  have each : ∀ last, Relation.ReflTransGen (MatchingEngine.Entry config.matching allowed) engine.matching last →
      last.Audited False last.allFills := by
    intro last reached
    induction reached with
    | refl => exact audited
    | tail _ entry ih =>
      obtain ⟨order, latency, -, done⟩ := entry
      exact (ih.submit done).1
  exact each next.matching entered.matching

section
variable (solvent : Solvent config budget engine)
  (rates : ∀ fees ∈ config.portfolioConfig.feeModel, fees.resolutionFeeRate ≤ 1)
include solvent rates

theorem Solvent.processSnapshot (mids : ∀ mid ∈ snapshot.mid, 0 ≤ mid)
    (alone : DrainsAlone config budget snapshot.observedAt engine.pendingIntents engine)
    (reserved : OnOk (drainIntents config snapshot.observedAt engine.pendingIntents engine) fun drained =>
      OnOk (drained.matching.advanceTo config.matching snapshot) fun result =>
        result.1.WithinLimits result.2 ∧ result.1.WithinBudgets budget ∧
          Meets (applyFill config) Allowed { drained with matching := result.1 } result.2) :
    OnOk (drainIntents config snapshot.observedAt engine.pendingIntents engine) (fun drained =>
      OnOk (drained.matching.advanceTo config.matching snapshot) fun result =>
        Always (applyFill config) (fun engine => engine.portfolio.Sound) { drained with matching := result.1 } result.2) ∧
      OnOk (processSnapshot config engine snapshot) (Solvent config budget) := by
  have fees : engine.portfolio.FeesBelowGains := by
    unfold Portfolio.FeesBelowGains
    rw [solvent.config]
    exact rates
  unfold BacktestEngine.processSnapshot
  cases drains : drainIntents config snapshot.observedAt engine.pendingIntents engine with
  | error raised => exact ⟨trivial, trivial⟩
  | ok drained =>
    rw [drains] at reserved
    change OnOk (drained.matching.advanceTo config.matching snapshot) _ at reserved
    have covers := solvent.covers.drainIntents alone drains
    have entered := entered_drainIntents drains
    have audited := entered.audited solvent.audited
    simp only [OnOk]
    cases advances : drained.matching.advanceTo config.matching snapshot with
    | error raised => exact ⟨trivial, trivial⟩
    | ok result =>
      obtain ⟨matching, fills⟩ := result
      rw [advances] at reserved
      obtain ⟨within, budgeted, allowed⟩ := reserved
      obtain ⟨auditedNext, -, -, ledger⟩ := audited.advanceTo False.elim False.elim advances
      have positive : ∀ fill ∈ fills, 0 < fill.size := by
        intro fill member
        have onLedger : fill ∈ matching.allFills := by
          rw [ledger]
          exact List.mem_append_right _ member
        obtain ⟨order, found⟩ := auditedNext.known fill onLedger
        have recorded : fill ∈ order.fills := by
          rw [auditedNext.onRecord _ order found]
          exact List.mem_filter.2 ⟨onLedger, decide_eq_true rfl⟩
        exact ((auditedNext.accounts _ order found).own fill recorded).positive
      have cashHeld := audited.cashReserved_le advances within budgeted
      have exposureHeld := audited.exposureReserved_le advances within
      have config_ : drained.portfolio.config = config.portfolioConfig := by rw [entered.portfolio, solvent.config]
      have long : drained.portfolio.AllLong := by
        rw [entered.portfolio]
        exact solvent.long
      have feesDrained : drained.portfolio.FeesBelowGains := by
        rw [entered.portfolio]
        exact fees
      obtain ⟨always, longFilled, configFilled, cashFilled, exposureFilled⟩ :=
        @sound_fills σ π ρ config { drained with matching := matching } fills long
        feesDrained positive allowed (matching.cashReserved budget) matching.exposureReserved
        (Dict.sumBy_nonneg fun order => order.cashReserve_nonneg budget) (Dict.sumBy_nonneg fun order => order.exposureReserve_nonneg)
        (cashHeld.trans covers.cash) (fun cap capped => by
          show drained.portfolio.entryExposureUsd + _ ≤ _
          linarith [covers.exposure cap capped])
      refine ⟨always, ?_⟩
      simp only
      rw [← run_eq_foldl]
      obtain ⟨sameMatching, -, -⟩ := applyFills_aside config { drained with matching := matching } fills
      obtain ⟨sameMarked, -, -⟩ := markAt_aside (run (applyFill config) { drained with matching := matching } fills) snapshot
      generalize filled : run (applyFill config) { drained with matching := matching } fills = after at *
      have marked : after.portfolio.Spends (after.markAt snapshot).portfolio 0 0 := by
        unfold markAt
        cases shown : snapshot.mid with
        | none => exact longFilled.refl
        | some mid => exact longFilled.mark snapshot.tokenId (mids mid shown) snapshot.observedAt
      cases exits : evaluateExits config snapshot ((after.markAt snapshot).exitTargets snapshot) (after.markAt snapshot) with
      | error raised => trivial
      | ok exited =>
        have coversFilled : after.Covers budget := by
          refine ⟨?_, fun cap capped => ?_⟩
          · rw [← filled, run_eq_foldl, sameMatching, ← run_eq_foldl, filled]
            exact cashFilled
          · rw [← filled, run_eq_foldl, sameMatching, ← run_eq_foldl, filled]
            rw [configFilled] at capped
            exact exposureFilled cap capped
        have sells : ∀ pos ∈ (after.markAt snapshot).exitTargets snapshot, ∀ order : NewOrder,
            order.side = pos.side.opposing → order.side = .sell := by
          intro pos member order closes
          obtain ⟨entry, held, rfl⟩ := List.mem_map.1 member
          rw [closes, (marked.long entry (List.mem_filter.1 held).1).side]
          rfl
        have left := entered_evaluateExits (fun order => order.side = .sell) sells exits
        have coversExited := (coversFilled.spends sameMarked marked).sells left.portfolio left.matching
        obtain ⟨told, portfolio, -, -⟩ := notifyCancels_spec config exited
        have auditedMarked : (after.markAt snapshot).matching.Audited False (after.markAt snapshot).matching.allFills := by
          rw [sameMarked, ← filled, run_eq_foldl, sameMatching]
          exact auditedNext
        simp only
        refine ⟨?_, ?_, ?_, ?_⟩
        · rw [told]
          exact left.audited auditedMarked
        · rw [portfolio, left.portfolio, marked.config, configFilled]
          exact config_
        · rw [portfolio, left.portfolio]
          exact marked.long
        · exact ⟨by rw [told, portfolio]; exact coversExited.cash, by rw [told, portfolio]; exact coversExited.exposure⟩

theorem Solvent.settleDue (settles : SettlesAbove config) (now : Instant) :
    Solvent config budget (settleDue config now engine) := by
  have fees : engine.portfolio.FeesBelowGains := by
    unfold Portfolio.FeesBelowGains
    rw [solvent.config]
    exact rates
  have spends := spends_settleDue settles solvent.long fees now
  have matching : (BacktestEngine.settleDue config now engine).matching = engine.matching := by
    have each : ∀ (schedule : List (Instant × String)) (start : BacktestEngine σ ρ),
        (settleSchedule config now schedule start).matching = start.matching := by
      intro schedule
      induction schedule with
      | nil => exact fun _ => rfl
      | cons entry rest ih =>
        obtain ⟨due, tokenId⟩ := entry
        intro start
        simp only [settleSchedule]
        split_ifs
        · exact (ih _).trans (settleToken_fewer config now tokenId).matching
        · rfl
    exact each engine.resolutionSchedule engine
  exact ⟨by rw [matching]; exact solvent.audited, by rw [spends.config]; exact solvent.config, spends.long,
    solvent.covers.spends matching spends⟩

theorem Solvent.onSnapshot (settles : SettlesAbove config)
    (reserved : WithinReserves config budget engine snapshot) :
    SoundThroughout config engine snapshot ∧ OnOk (onSnapshot config true engine snapshot) (Solvent config budget) := by
  have settled := solvent.settleDue rates settles snapshot.observedAt
  unfold BacktestEngine.onSnapshot SoundThroughout
  simp only [Bool.true_and]
  cases involved : (BacktestEngine.settleDue config snapshot.observedAt engine).involved snapshot with
  | false => exact ⟨⟨settled.covers.sound, fun never => by cases never⟩, settled⟩
  | true =>
    obtain ⟨always, next⟩ := settled.processSnapshot rates reserved.1 (reserved.2 involved).1 (reserved.2 involved).2
    exact ⟨⟨settled.covers.sound, fun _ => always⟩, next⟩

end

theorem solvent_new (config : BacktestConfig σ π ρ) (strategy : σ) (latency : ρ) (intents : List TradeIntent)
    (capital : 0 ≤ config.portfolio.initialCapitalUsd) : Solvent config budget (new config strategy latency intents) := by
  refine ⟨MatchingEngine.audited_empty False, rfl, Dict.all_empty _, capital, fun cap _ => ?_⟩
  show (0 : ℚ) + 0 ≤ max 0 cap
  rw [add_zero]
  exact le_max_left _ _

/-- In a run that keeps within its reserves, cash and exposure are sound after every snapshot, after every fill of one, and
at the end. -/
theorem solvent_run (config : BacktestConfig σ π ρ) (strategy : σ) (latency : ρ) (intents : List TradeIntent)
    (snapshots : List BookSnapshot) (budget : String → ℚ) (capital : 0 ≤ config.portfolio.initialCapitalUsd)
    (rates : ∀ fees ∈ config.portfolioConfig.feeModel, fees.resolutionFeeRate ≤ 1) (settles : SettlesAbove config)
    (reserved : Meets (step config true) (fun run snapshot => OnOk run fun engine => WithinReserves config budget engine snapshot)
      (.ok (new config strategy latency intents)) snapshots) :
    Always (step config true) (fun run => OnOk run fun engine => engine.portfolio.Sound ∧ (finish config engine).portfolio.Sound)
        (.ok (new config strategy latency intents)) snapshots ∧
      Meets (step config true) (fun run snapshot => OnOk run fun engine => SoundThroughout config engine snapshot)
        (.ok (new config strategy latency intents)) snapshots := by
  have start : OnOk (Except.ok (new config strategy latency intents) : Except MatchingError (BacktestEngine σ ρ)) (Solvent config budget) :=
    solvent_new config strategy latency intents capital
  have keeps : ∀ (run : Except MatchingError (BacktestEngine σ ρ)) (snapshot : BookSnapshot), OnOk run (Solvent config budget) →
      OnOk run (fun engine => WithinReserves config budget engine snapshot) →
        OnOk (step config true run snapshot) (Solvent config budget) := by
    intro run snapshot solvent within
    cases run with
    | error raised => trivial
    | ok engine => exact (Solvent.onSnapshot solvent rates settles within).2
  constructor
  · intro first isPrefix
    have solvent := always_of_meets keeps start reserved first isPrefix
    generalize Runs.run (step config true) _ first = last at solvent ⊢
    cases last with
    | error raised => trivial
    | ok engine =>
      have held : Solvent config budget engine := solvent
      have fees : engine.portfolio.FeesBelowGains := by
        unfold Portfolio.FeesBelowGains
        rw [held.config]
        exact rates
      exact ⟨held.covers.sound, sound_finish settles held.long fees held.covers.sound⟩
  · apply Meets.imp keeps _ start reserved
    intro run snapshot solvent within
    cases run with
    | error raised => trivial
    | ok engine => exact (Solvent.onSnapshot solvent rates settles within).1

def cappedAtCapital : BacktestConfig Unit Unit Unit where
  portfolio := { maxGrossExposureUsd := some 10000 }
  planChildren := fun _ _ _ _ _ => []
  sampleSubmit := fun _ _ => ((), 250000)
  makeOrderId := fun _ => "made"

def buysAtOnce (orders : List (String × ℚ)) : List TradeIntent :=
  orders.map fun order => { intentId := order.1, emittedAt := 0, tokenId := "T", side := .buy, size := order.2, limitPrice := 1 / 2, tif := .ioc }

def deepBook : List BookSnapshot := [⟨"T", 2000000, [⟨49 / 100, 40000⟩], [⟨1 / 2, 40000⟩], none⟩]

/-- A buy that is filled before the next one comes up, which the gate then refuses, and the sale of a part of what was bought. -/
def boughtAndSold : List TradeIntent :=
  buysAtOnce [("a", 16000)] ++
    [{ intentId := "b", emittedAt := 3000000, tokenId := "T", side := .buy, size := 16000, limitPrice := 1 / 2, tif := .ioc },
      { intentId := "c", emittedAt := 5000000, tokenId := "T", side := .sell, size := 4000, limitPrice := 49 / 100, tif := .ioc }]

def deepBooks : List BookSnapshot :=
  deepBook ++ [⟨"T", 4000000, [⟨49 / 100, 40000⟩], [⟨1 / 2, 40000⟩], none⟩, ⟨"T", 6000000, [⟨49 / 100, 40000⟩], [⟨1 / 2, 40000⟩], none⟩]

theorem solvent_boughtAndSold :
    Always (step cappedAtCapital true) (fun run => OnOk run fun engine => engine.portfolio.Sound ∧ (finish cappedAtCapital engine).portfolio.Sound)
        (.ok (new cappedAtCapital () () boughtAndSold)) deepBooks ∧
      Meets (step cappedAtCapital true) (fun run snapshot => OnOk run fun engine => SoundThroughout cappedAtCapital engine snapshot)
        (.ok (new cappedAtCapital () () boughtAndSold)) deepBooks := by
  apply solvent_run cappedAtCapital () () boughtAndSold deepBooks (fun _ => 1000)
  · decide +kernel
  · decide +kernel
  · exact fun entry member => absurd member List.not_mem_nil
  · decide +kernel

/-- Two intents that the cash covers one by one are both let through, and both are filled. -/
theorem not_sound_twoBuys :
    ¬ Always (step cappedAtCapital true) (fun run => OnOk run fun engine => 0 ≤ engine.portfolio.cashUsd)
        (.ok (new cappedAtCapital () () (buysAtOnce [("a", 16000), ("b", 16000)]))) deepBook ∧
      ¬ Always (step cappedAtCapital true) (fun run => OnOk run fun engine => engine.portfolio.entryExposureUsd ≤ 10000)
        (.ok (new cappedAtCapital () () (buysAtOnce [("a", 16000), ("b", 16000)]))) deepBook := by
  constructor
  · intro sound
    have last := sound _ (List.prefix_refl _)
    revert last
    decide +kernel
  · intro sound
    have last := sound _ (List.prefix_refl _)
    revert last
    decide +kernel

end BacktestEngine

end Callisto.Backtest
