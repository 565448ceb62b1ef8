import Mathlib.Algebra.Order.Field.Basic
import Mathlib.Algebra.Order.Ring.Rat
import Mathlib.Tactic.Linarith
import Mathlib.Tactic.NormNum
import Callisto.Library.Runs

/-! The daily spend gate of a live leg, the size that is sent after it, and the counter that the fills advance. -/

namespace Callisto.Orders

open Callisto.Library

/-- `_MIN_EXECUTION_PRICE` -/
def minExecutionPrice : ℚ := 1 / 1000

/-- `_MIN_LIVE_SHARES` -/
def minLiveShares : ℚ := 5

/-- What `check_daily_spend_cap` returns. -/
structure SpendStatus where
  allowed : Bool
  currentSpendUsd : ℚ
  projectedSpendUsd : ℚ
  capUsd : Option ℚ
  softFail : Bool
  deriving DecidableEq

/-- `check_daily_spend_cap`; no counter is an unhealthy Redis. -/
def checkDailySpendCap (counter : Option ℚ) (proposedNotionalUsd : ℚ) (capUsd : Option ℚ) : SpendStatus :=
  match capUsd with
  | none => ⟨true, 0, 0, none, false⟩
  | some cap =>
    if cap ≤ 0 then ⟨true, 0, 0, none, false⟩
    else match counter with
    | none => ⟨true, 0, max 0 proposedNotionalUsd, some cap, true⟩
    | some current => ⟨current + max 0 proposedNotionalUsd ≤ cap, current, current + max 0 proposedNotionalUsd, some cap, false⟩

/-- `record_spend_usd` -/
def recordSpendUsd (counter : Option ℚ) (notionalUsd : ℚ) : Option ℚ :=
  if notionalUsd ≤ 0 then counter else counter.map fun current => current + notionalUsd

inductive ExecutionStatus where
  | executed
  | completed
  | open_
  | submitted
  | failed
  deriving DecidableEq

structure Execution where
  status : ExecutionStatus
  filledSize : ℚ
  effectivePrice : Option ℚ

/-- A live leg: its notional, the price resolved for it, whether the gates before and after the spend gate let it through (they only refuse),
and what its execution reports if it is sent. -/
structure Leg where
  notionalUsd : ℚ
  price : Option ℚ
  slippageRejected : Bool
  refusedLater : Bool
  execution : Execution

inductive Submission where
  | refused (reason : String)
  | sent (shares : ℚ)
  deriving DecidableEq

def liveShares (requestedShares : ℚ) : ℚ := if requestedShares < minLiveShares then minLiveShares else requestedShares

/-- `submit_execution_leg` up to the first call of the adapter. -/
def submitExecutionLeg (counter maxDailySpendUsd : Option ℚ) (leg : Leg) : Submission :=
  let notional := max 0 leg.notionalUsd
  match leg.price with
  | none => .refused "missing_price"
  | some price =>
    if price ≤ 0 then .refused "missing_price"
    else if 1 < price then .refused "invalid_price_range"
    else if price < minExecutionPrice then .refused "invalid_price_too_small"
    else if leg.slippageRejected then .refused "slippage_bps_exceeded"
    else if !(checkDailySpendCap counter notional maxDailySpendUsd).allowed then .refused "max_daily_spend_usd_exceeded"
    else if notional / price ≤ 0 then .refused "invalid_size"
    else if leg.refusedLater then .refused "refused_before_execution"
    else .sent (liveShares (notional / price))

def Execution.filledNotional (execution : Execution) : ℚ :=
  if (execution.status = .executed ∨ execution.status = .completed) ∧ 0 < execution.filledSize then
    execution.filledSize * execution.effectivePrice.getD 0 else 0

def submitLeg (maxDailySpendUsd : Option ℚ) (counter : Option ℚ) (leg : Leg) : Option ℚ :=
  match submitExecutionLeg counter maxDailySpendUsd leg with
  | .refused _ => counter
  | .sent _ => recordSpendUsd counter leg.execution.filledNotional

/-- The gates let the leg be sent at the price, at a counter and a cap. -/
structure Passes (cap spent : ℚ) (leg : Leg) (price : ℚ) : Prop where
  resolved : leg.price = some price
  positive : 0 < price
  inRange : price ≤ 1
  notTooSmall : minExecutionPrice ≤ price
  slippage : leg.slippageRejected = false
  underCap : spent + leg.notionalUsd ≤ cap
  sized : 0 < leg.notionalUsd
  later : leg.refusedLater = false

theorem max_notional {notional price : ℚ} (positive : 0 < price) : max 0 notional / price ≤ 0 ↔ notional ≤ 0 := by
  rw [div_le_iff₀ positive, zero_mul]
  exact ⟨fun le => (le_max_right 0 notional).trans le, fun le => max_le le_rfl le⟩

theorem allowed_iff {cap spent notional : ℚ} (capped : 0 < cap) :
    (checkDailySpendCap (some spent) notional (some cap)).allowed = true ↔ spent + max 0 notional ≤ cap := by
  unfold checkDailySpendCap
  simp only [if_neg (not_le.2 capped)]
  exact decide_eq_true_iff

theorem submitExecutionLeg_eq_sent {cap spent shares : ℚ} (capped : 0 < cap) {leg : Leg} :
    submitExecutionLeg (some spent) (some cap) leg = .sent shares ↔
      ∃ price, Passes cap spent leg price ∧ shares = liveShares (leg.notionalUsd / price) := by
  unfold submitExecutionLeg
  cases resolved : leg.price with
  | none => exact iff_of_false nofun fun passes => by obtain ⟨price, held, -⟩ := passes; exact absurd (resolved.symm.trans held.resolved) nofun
  | some price =>
    have only (other : ℚ) (passes : Passes cap spent leg other) : other = price := Option.some.inj (passes.resolved.symm.trans resolved)
    have refuse {reason : String} (fails : ¬ Passes cap spent leg price) :
        Submission.refused reason = Submission.sent shares ↔
          ∃ other, Passes cap spent leg other ∧ shares = liveShares (leg.notionalUsd / other) :=
      iff_of_false nofun fun some_ => by obtain ⟨other, held, -⟩ := some_; exact fails (only other held ▸ held)
    by_cases positive : price ≤ 0
    · simp only [if_pos positive]
      exact refuse fun held => absurd held.positive (not_lt.2 positive)
    simp only [if_neg positive]
    have positive' := not_le.1 positive
    by_cases inRange : 1 < price
    · rw [if_pos inRange]
      exact refuse fun held => absurd held.inRange (not_le.2 inRange)
    rw [if_neg inRange]
    by_cases small : price < minExecutionPrice
    · rw [if_pos small]
      exact refuse fun held => absurd held.notTooSmall (not_le.2 small)
    rw [if_neg small]
    by_cases slipped : leg.slippageRejected = true
    · rw [if_pos slipped]
      exact refuse fun held => absurd (slipped.symm.trans held.slippage) nofun
    rw [if_neg slipped]
    by_cases allowed : (checkDailySpendCap (some spent) (max 0 leg.notionalUsd) (some cap)).allowed = true
    swap
    · rw [if_pos (by simpa using allowed)]
      refine refuse fun held => allowed ((allowed_iff capped).2 ?_)
      rw [max_eq_right (le_max_left 0 _), max_eq_right held.sized.le]
      exact held.underCap
    rw [if_neg (by simpa using allowed)]
    have underCap := (allowed_iff capped).1 allowed
    rw [max_eq_right (le_max_left 0 _)] at underCap
    by_cases empty : max 0 leg.notionalUsd / price ≤ 0
    · rw [if_pos empty]
      exact refuse fun held => absurd held.sized (not_lt.2 ((max_notional positive').1 empty))
    rw [if_neg empty]
    have sized : 0 < leg.notionalUsd := not_le.1 fun none_ => empty ((max_notional positive').2 none_)
    rw [max_eq_right sized.le] at underCap ⊢
    by_cases later : leg.refusedLater = true
    · rw [if_pos later]
      exact refuse fun held => absurd (later.symm.trans held.later) nofun
    rw [if_neg later, Submission.sent.injEq]
    have passes : Passes cap spent leg price := ⟨resolved, positive', not_lt.1 inRange, not_lt.1 small, eq_false_of_ne_true slipped, underCap,
      sized, eq_false_of_ne_true later⟩
    refine ⟨fun same => ⟨price, passes, same.symm⟩, fun some_ => ?_⟩
    obtain ⟨other, held, same⟩ := some_
    rw [same, only other held]

theorem liveShares_mul {notional price : ℚ} (positive : 0 < price) :
    liveShares (notional / price) * price = if notional / price < minLiveShares then minLiveShares * price else notional := by
  unfold liveShares
  by_cases small : notional / price < minLiveShares
  · rw [if_pos small, if_pos small]
  · rw [if_neg small, if_neg small, div_mul_cancel₀ notional positive.ne']

/-- Whenever the leg is sent, its value at the leg price fits under the cap. -/
def SendsUnderCap (cap : ℚ) (counter : Option ℚ) (leg : Leg) : Prop :=
  ∀ spent price shares, counter = some spent → leg.price = some price → submitExecutionLeg counter (some cap) leg = .sent shares →
    spent + shares * price ≤ cap

/-- A leg that passes is not raised to the minimum size, or the minimum size at its price still fits. -/
def BumpFits (cap : ℚ) (counter : Option ℚ) (leg : Leg) : Prop :=
  ∀ spent price, counter = some spent → Passes cap spent leg price →
    minLiveShares ≤ leg.notionalUsd / price ∨ spent + minLiveShares * price ≤ cap

def FillsAtMost (cap : ℚ) (counter : Option ℚ) (leg : Leg) : Prop :=
  ∀ price shares, leg.price = some price → submitExecutionLeg counter (some cap) leg = .sent shares →
    leg.execution.filledSize ≤ shares ∧ ∀ paid, leg.execution.effectivePrice = some paid → paid ≤ price

theorem sendsUnderCap_iff {cap spent : ℚ} (capped : 0 < cap) (leg : Leg) :
    SendsUnderCap cap (some spent) leg ↔ BumpFits cap (some spent) leg := by
  constructor
  · intro sends current price same passes
    cases same
    by_cases small : leg.notionalUsd / price < minLiveShares
    · have fits := sends spent price _ rfl passes.resolved ((submitExecutionLeg_eq_sent capped).2 ⟨price, passes, rfl⟩)
      rw [liveShares_mul passes.positive, if_pos small] at fits
      exact Or.inr fits
    · exact Or.inl (not_lt.1 small)
  · intro fits current price shares same resolved sent
    cases same
    obtain ⟨other, passes, size⟩ := (submitExecutionLeg_eq_sent capped).1 sent
    have equal : other = price := Option.some.inj (passes.resolved.symm.trans resolved)
    rw [equal] at passes size
    rw [size, liveShares_mul passes.positive]
    by_cases small : leg.notionalUsd / price < minLiveShares
    · rw [if_pos small]
      exact (fits spent price rfl passes).resolve_left (not_le.2 small)
    · rw [if_neg small]
      exact passes.underCap

theorem filledNotional_le {execution : Execution} {shares price : ℚ} (positive : 0 ≤ shares * price) (price0 : 0 ≤ price)
    (size : execution.filledSize ≤ shares)
    (paid : ∀ paid, execution.effectivePrice = some paid → paid ≤ price) : execution.filledNotional ≤ shares * price := by
  unfold Execution.filledNotional
  by_cases filled : (execution.status = .executed ∨ execution.status = .completed) ∧ 0 < execution.filledSize
  · rw [if_pos filled]
    have atMost : execution.effectivePrice.getD 0 ≤ price := by
      cases report : execution.effectivePrice with
      | none => exact price0
      | some value => exact paid value report
    calc
      _ ≤ execution.filledSize * price := mul_le_mul_of_nonneg_left atMost filled.2.le
      _ ≤ _ := mul_le_mul_of_nonneg_right size price0
  · rw [if_neg filled]
    exact positive

theorem liveShares_pos (requestedShares : ℚ) : 0 < liveShares requestedShares := by
  unfold liveShares minLiveShares
  by_cases small : requestedShares < 5
  · rw [if_pos small]
    norm_num
  · rw [if_neg small]
    linarith

def UnderCap (cap : ℚ) (counter : Option ℚ) : Prop := ∃ spent, counter = some spent ∧ spent ≤ cap

theorem underCap_submitLeg {cap : ℚ} (capped : 0 < cap) {counter : Option ℚ} (under : UnderCap cap counter) {leg : Leg}
    (fills : FillsAtMost cap counter leg) (sends : SendsUnderCap cap counter leg) : UnderCap cap (submitLeg (some cap) counter leg) := by
  obtain ⟨spent, found, le⟩ := under
  subst found
  unfold submitLeg
  cases outcome : submitExecutionLeg (some spent) (some cap) leg with
  | refused reason => exact ⟨spent, rfl, le⟩
  | sent shares =>
    obtain ⟨price, passes, size⟩ := (submitExecutionLeg_eq_sent capped).1 outcome
    have value := sends spent price shares rfl passes.resolved outcome
    have bounds := fills price shares passes.resolved outcome
    have positive : 0 < shares := size ▸ liveShares_pos _
    have recorded := filledNotional_le (mul_pos positive passes.positive).le passes.positive.le bounds.1 bounds.2
    change UnderCap cap (recordSpendUsd (some spent) leg.execution.filledNotional)
    unfold recordSpendUsd
    by_cases none_ : leg.execution.filledNotional ≤ 0
    · rw [if_pos none_]
      exact ⟨spent, rfl, le⟩
    · rw [if_neg none_]
      exact ⟨spent + leg.execution.filledNotional, rfl, by linarith⟩

/-- Over a day's submissions, every order sent fits under the cap and the recorded spend stays under it exactly when no leg that passes the
gate is raised to a size that does not fit. -/
theorem dailySpend_capped_iff {cap : ℚ} (capped : 0 < cap) (legs : List Leg)
    (fills : Runs.Meets (submitLeg (some cap)) (FillsAtMost cap) (some 0) legs) :
    (Runs.Meets (submitLeg (some cap)) (SendsUnderCap cap) (some 0) legs ∧ Runs.Always (submitLeg (some cap)) (UnderCap cap) (some 0) legs) ↔
      Runs.Meets (submitLeg (some cap)) (BumpFits cap) (some 0) legs := by
  have start : UnderCap cap (some 0) := ⟨0, rfl, capped.le⟩
  have promise (counter : Option ℚ) (leg : Leg) (under : UnderCap cap counter) : SendsUnderCap cap counter leg ↔ BumpFits cap counter leg := by
    obtain ⟨spent, found, -⟩ := under
    rw [found]
    exact sendsUnderCap_iff capped leg
  have keeps (counter : Option ℚ) (leg : Leg) (under : UnderCap cap counter) (ok : FillsAtMost cap counter leg ∧ SendsUnderCap cap counter leg) :
      UnderCap cap (submitLeg (some cap) counter leg) := underCap_submitLeg capped under ok.1 ok.2
  constructor
  · intro held
    refine (Runs.Meets.imp keeps (fun counter leg under ok => ?_) start (fills.and held.1))
    exact (promise counter leg under).1 ok.2
  · intro fits
    have both := fills.and fits
    have keepsFits (counter : Option ℚ) (leg : Leg) (under : UnderCap cap counter) (ok : FillsAtMost cap counter leg ∧ BumpFits cap counter leg) :
        UnderCap cap (submitLeg (some cap) counter leg) := keeps counter leg under ⟨ok.1, (promise counter leg under).2 ok.2⟩
    refine ⟨Runs.Meets.imp keepsFits (fun counter leg under ok => ?_) start both, Runs.always_of_meets keepsFits start both⟩
    exact (promise counter leg under).2 ok.2

/-- Half a dollar at a price of 0.9 under a cap of one dollar: five shares are sent. -/
def smallLeg : Leg := ⟨1 / 2, some (9 / 10), false, false, ⟨.executed, 5, some (9 / 10)⟩⟩

theorem fillsAtMost_of_sent {cap price shares : ℚ} {counter : Option ℚ} {leg : Leg} (resolved : leg.price = some price)
    (sent : submitExecutionLeg counter (some cap) leg = .sent shares) (filled : leg.execution.filledSize ≤ shares)
    (paid : ∀ other, leg.execution.effectivePrice = some other → other ≤ price) : FillsAtMost cap counter leg := by
  intro other size known goes
  rw [resolved] at known
  rw [sent] at goes
  cases known
  cases goes
  exact ⟨filled, paid⟩

theorem sent_smallLeg : submitExecutionLeg (some 0) (some 1) smallLeg = .sent 5 := by decide +kernel

theorem fillsAtMost_smallLeg : Runs.Meets (submitLeg (some 1)) (FillsAtMost 1) (some 0) [smallLeg] :=
  ⟨fillsAtMost_of_sent rfl sent_smallLeg le_rfl (by decide +kernel), trivial⟩

theorem overspends_smallLeg : Runs.Meets (submitLeg (some 1)) (FillsAtMost 1) (some 0) [smallLeg] ∧
    submitExecutionLeg (some 0) (some 1) smallLeg = .sent 5 ∧ Runs.run (submitLeg (some 1)) (some 0) [smallLeg] = some (9 / 2) ∧
    ¬ Runs.Meets (submitLeg (some 1)) (SendsUnderCap 1) (some 0) [smallLeg] := by
  refine ⟨fillsAtMost_smallLeg, sent_smallLeg, by decide +kernel, fun sends => ?_⟩
  have fits := sends.1 0 (9 / 10) 5 rfl rfl sent_smallLeg
  norm_num at fits

def betterLeg : Leg := ⟨5, some (1 / 2), false, false, ⟨.executed, 10, some (12 / 25)⟩⟩

def halfLeg : Leg := ⟨4, some (2 / 5), false, false, ⟨.completed, 5, some (2 / 5)⟩⟩

def lastLeg : Leg := ⟨4, some (4 / 5), false, false, ⟨.failed, 0, none⟩⟩

/-- Under a cap of ten dollars the first leg is filled at a better price, the second in half, and the third does not fit any more. -/
theorem dailySpend_capped_iff_severalLegs :
    (Runs.Meets (submitLeg (some 10)) (SendsUnderCap 10) (some 0) [betterLeg, halfLeg, lastLeg] ∧
      Runs.Always (submitLeg (some 10)) (UnderCap 10) (some 0) [betterLeg, halfLeg, lastLeg]) ↔
        Runs.Meets (submitLeg (some 10)) (BumpFits 10) (some 0) [betterLeg, halfLeg, lastLeg] := by
  have first : submitExecutionLeg (some 0) (some 10) betterLeg = .sent 10 := by decide +kernel
  have spent : submitLeg (some 10) (some 0) betterLeg = some (24 / 5) := by decide +kernel
  have second : submitExecutionLeg (some (24 / 5)) (some 10) halfLeg = .sent 10 := by decide +kernel
  have further : submitLeg (some 10) (some (24 / 5)) halfLeg = some (34 / 5) := by decide +kernel
  have refused : submitExecutionLeg (some (34 / 5)) (some 10) lastLeg = .refused "max_daily_spend_usd_exceeded" := by decide +kernel
  have fills : Runs.Meets (submitLeg (some 10)) (FillsAtMost 10) (some 0) [betterLeg, halfLeg, lastLeg] := by
    rw [Runs.meets_cons, spent, Runs.meets_cons, further]
    refine ⟨fillsAtMost_of_sent rfl first le_rfl (by decide +kernel), fillsAtMost_of_sent rfl second (by decide +kernel) (by decide +kernel),
      fun price shares _ sent => ?_, trivial⟩
    rw [refused] at sent
    cases sent
  exact dailySpend_capped_iff (by norm_num) _ fills

end Callisto.Orders
