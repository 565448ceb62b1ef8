import Callisto.Backtest.Engine
import Callisto.Backtest.MatchingMirror

/-! The fast path of the backtest engine against the run without it: a run that passes over the snapshots of
uninvolved tokens ends like the run that does not, but for the points of the equity curve that it leaves out. -/

namespace Callisto.Backtest

open Callisto.Library Callisto.Library.Runs

namespace Drawdown

variable {first second : Drawdown}

structure Alike (first second : Drawdown) : Prop where
  peak : second.peak.map Prod.fst = first.peak.map Prod.fst
  usd : second.usd = first.usd
  part : second.part = first.part

theorem Alike.refl (drawdown : Drawdown) : drawdown.Alike drawdown := ⟨rfl, rfl, rfl⟩

theorem Alike.observe (alike : first.Alike second) (moment other : Instant) (value : ℚ) :
    (first.observe (moment, value)).Alike (second.observe (other, value)) := by
  obtain ⟨firstPeak, usd, part, duration⟩ := first
  obtain ⟨secondPeak, usdSecond, partSecond, durationSecond⟩ := second
  obtain ⟨peak, sameUsd, samePart⟩ := alike
  simp only at peak sameUsd samePart
  subst sameUsd samePart
  unfold Drawdown.observe
  cases firstPeak with
  | none =>
    cases secondPeak with
    | none => exact ⟨rfl, rfl, rfl⟩
    | some reached => cases peak
  | some reached =>
    cases secondPeak with
    | none => cases peak
    | some reachedSecond =>
      obtain ⟨height, at_⟩ := reached
      obtain ⟨heightSecond, atSecond⟩ := reachedSecond
      have same : heightSecond = height := Option.some_injective _ peak
      subst same
      by_cases higher : heightSecond < value
      · simp only [if_pos higher]
        exact ⟨rfl, rfl, rfl⟩
      · simp only [if_neg higher]
        exact ⟨rfl, rfl, rfl⟩

def Covers (drawdown : Drawdown) (value : ℚ) : Prop :=
  ∃ peak ∈ drawdown.peak, value ≤ peak.1 ∧ peak.1 - value ≤ drawdown.usd

theorem Covers.alike {drawdown : Drawdown} {value : ℚ} (covers : drawdown.Covers value) (moment : Instant) :
    drawdown.Alike (drawdown.observe (moment, value)) := by
  obtain ⟨peak, known, below, within⟩ := covers
  have at_ : drawdown.peak = some (peak.1, peak.2) := known
  unfold Drawdown.observe
  rw [at_]
  simp only
  rw [if_neg (not_lt.2 below), if_neg (not_lt.2 within), if_neg (not_lt.2 within)]
  exact ⟨by rw [at_], rfl, rfl⟩

theorem Alike.trans {third : Drawdown} (before : first.Alike second) (after : second.Alike third) : first.Alike third :=
  ⟨after.peak.trans before.peak, after.usd.trans before.usd, after.part.trans before.part⟩

theorem ofHistory_append (history : List (Instant × ℚ)) (point : Instant × ℚ) :
    ofHistory (history ++ [point]) = (ofHistory history).observe point := by
  rw [ofHistory, List.foldl_append]
  rfl

end Drawdown

namespace Portfolio

variable {fast full : Portfolio} {seen : Prop}

def unrecorded (book : Portfolio) : Portfolio := { book with peakEquityUsd := 0, equityHistory := [], cashHistory := [] }

/-- The portfolios differ in their history at most, which tells the same drawdown when the run is seen whole. -/
structure Shadows (seen : Prop) (fast full : Portfolio) : Prop where
  same : full.unrecorded = fast.unrecorded
  alike : seen → (Drawdown.ofHistory fast.equityHistory).Alike (Drawdown.ofHistory full.equityHistory)

theorem Shadows.equity (shadows : fast.Shadows seen full) : full.equityUsd = fast.equityUsd := by
  show full.unrecorded.equityUsd = fast.unrecorded.equityUsd
  rw [shadows.same]

theorem Shadows.positions (shadows : fast.Shadows seen full) : full.positions = fast.positions := by
  show full.unrecorded.positions = fast.unrecorded.positions
  rw [shadows.same]

theorem Shadows.congr {next nextFull : Portfolio} (shadows : fast.Shadows seen full) (same : nextFull.unrecorded = next.unrecorded)
    (history : next.equityHistory = fast.equityHistory) (historyFull : nextFull.equityHistory = full.equityHistory) :
    next.Shadows seen nextFull := by
  refine ⟨same, fun whole => ?_⟩
  rw [history, historyFull]
  exact shadows.alike whole

theorem applyClosing_unrecorded (book : Portfolio) (key : PositionKey) (pos : Position) (fill : Fill) :
    (book.applyClosing key pos fill).unrecorded = book.unrecorded.applyClosing key pos fill := by
  unfold applyClosing
  by_cases spent : (pos.applyCloseFill fill).size ≤ dust
  · simp only [if_pos spent]
    rfl
  · simp only [if_neg spent]
    rfl

theorem applyFill_unrecorded (book : Portfolio) (fill : Fill) (slug : Option String) :
    (book.applyFill fill slug).unrecorded = book.unrecorded.applyFill fill slug := by
  have same : book.unrecorded.positions = book.positions := rfl
  unfold applyFill
  simp only [same]
  cases book.positions.get? (fill.tokenId, fill.side.opposing, slug) with
  | none => rfl
  | some pos => exact applyClosing_unrecorded book _ pos fill

theorem equityHistory_applyFill (book : Portfolio) (fill : Fill) (slug : Option String) :
    (book.applyFill fill slug).equityHistory = book.equityHistory := by
  cases found : book.positions.get? (fill.tokenId, fill.side.opposing, slug) with
  | none =>
    simp only [applyFill, found]
    rfl
  | some pos =>
    simp only [applyFill, found, applyClosing]
    by_cases spent : (pos.applyCloseFill fill).size ≤ dust
    · rw [if_pos spent]
    · rw [if_neg spent]

theorem Shadows.applyFill (shadows : fast.Shadows seen full) (fill : Fill) (slug : Option String) :
    (fast.applyFill fill slug).Shadows seen (full.applyFill fill slug) := by
  apply shadows.congr
  · rw [applyFill_unrecorded, applyFill_unrecorded, shadows.same]
  · exact equityHistory_applyFill fast fill slug
  · exact equityHistory_applyFill full fill slug

theorem Shadows.closePositionAt (shadows : fast.Shadows seen full) (key : PositionKey) (pos : Position) (price : ℚ)
    (moment : Instant) (isSettlement : Bool) :
    (fast.closePositionAt key pos price moment isSettlement).Shadows seen (full.closePositionAt key pos price moment isSettlement) := by
  apply shadows.congr
  · show full.unrecorded.closePositionAt key pos price moment isSettlement =
      fast.unrecorded.closePositionAt key pos price moment isSettlement
    rw [shadows.same]
  · rfl
  · rfl

theorem Shadows.mark (shadows : fast.Shadows seen full) (tokenId : String) (price : ℚ) (moment : Instant) :
    (fast.mark tokenId price moment).Shadows seen (full.mark tokenId price moment) := by
  have same : (full.mark tokenId price moment).unrecorded = (fast.mark tokenId price moment).unrecorded := by
    show (full.unrecorded.mark tokenId price moment).unrecorded = (fast.unrecorded.mark tokenId price moment).unrecorded
    rw [shadows.same]
  have equity : (full.mark tokenId price moment).equityUsd = (fast.mark tokenId price moment).equityUsd := by
    show (full.mark tokenId price moment).unrecorded.equityUsd = (fast.mark tokenId price moment).unrecorded.equityUsd
    rw [same]
  refine ⟨same, fun whole => ?_⟩
  show (Drawdown.ofHistory (fast.equityHistory ++ [(moment, (fast.mark tokenId price moment).equityUsd)])).Alike
    (Drawdown.ofHistory (full.equityHistory ++ [(moment, (full.mark tokenId price moment).equityUsd)]))
  rw [Drawdown.ofHistory_append, Drawdown.ofHistory_append, equity]
  exact (shadows.alike whole).observe _ _ _

theorem Shadows.canSubmit (shadows : fast.Shadows seen full) (tokenId : String) (side : Side) (price size : ℚ)
    (slug : Option String) : full.canSubmit tokenId side price size slug = fast.canSubmit tokenId side price size slug := by
  show full.unrecorded.canSubmit tokenId side price size slug = fast.unrecorded.canSubmit tokenId side price size slug
  rw [shadows.same]

theorem Shadows.markFull (shadows : fast.Shadows seen full) {tokenId : String} (price : ℚ) (moment : Instant)
    (unheld : ∀ entry ∈ fast.positions.entries, entry.1.1 ≠ tokenId)
    (covered : seen → (Drawdown.ofHistory fast.equityHistory).Covers fast.equityUsd) :
    fast.Shadows seen (full.mark tokenId price moment) := by
  have positions : full.positions.mapValues (fun key pos => if key.1 = tokenId then pos.mark price moment else pos) =
      full.positions := by
    apply Dict.mapValues_same
    intro entry member
    rw [shadows.positions] at member
    rw [if_neg (unheld entry member)]
  have same : (full.mark tokenId price moment).unrecorded = full.unrecorded := by
    unfold Portfolio.mark unrecorded
    rw [positions]
  have equity : (full.mark tokenId price moment).equityUsd = fast.equityUsd := by
    show (full.mark tokenId price moment).unrecorded.equityUsd = _
    rw [same]
    exact shadows.equity
  refine ⟨same.trans shadows.same, fun whole => ?_⟩
  show (Drawdown.ofHistory fast.equityHistory).Alike
    (Drawdown.ofHistory (full.equityHistory ++ [(moment, (full.mark tokenId price moment).equityUsd)]))
  rw [Drawdown.ofHistory_append, equity]
  exact ((covered whole).alike moment).trans ((shadows.alike whole).observe _ _ _)

end Portfolio

namespace BacktestEngine

variable {σ π ρ : Type} {config : BacktestConfig σ π ρ} {fast full engine next : BacktestEngine σ ρ} {seen : Prop}
  {past now : Option Instant} {snapshot : BookSnapshot}

/-- The two runs agree in all but the histories, the times of their matching engines and the books nobody looks at. -/
def Shadows (seen : Prop) (past now : Option Instant) (fast full : BacktestEngine σ ρ) : Prop :=
  ∃ portfolio matching, full = { fast with portfolio := portfolio, matching := matching } ∧
    fast.portfolio.Shadows seen portfolio ∧ fast.matching.Shadows matching ∧ fast.matching.now = past ∧ matching.now = now

theorem Shadows.settleToken (shadows : Shadows seen past now fast full) (config : BacktestConfig σ π ρ) (time : Instant)
    (tokenId : String) : Shadows seen past now (settleToken config time fast tokenId) (settleToken config time full tokenId) := by
  have each : ∀ (price : ℚ) (at_ : Instant) (entries : List (PositionKey × Position)) (first second : BacktestEngine σ ρ),
      Shadows seen past now first second → Shadows seen past now (entries.foldl (settlePosition tokenId price at_) first)
        (entries.foldl (settlePosition tokenId price at_) second) := by
    intro price at_ entries
    induction entries with
    | nil => exact fun _ _ start => start
    | cons entry rest ih =>
      intro first second start
      apply ih
      unfold settlePosition
      split_ifs
      · exact start
      · obtain ⟨portfolio, matching, rfl, books, engines, clocks⟩ := start
        exact ⟨portfolio.closePositionAt entry.1 entry.2 price at_ true, matching, rfl, books.closePositionAt _ _ _ _ _, engines,
          clocks⟩
  have positions : full.portfolio.positions = fast.portfolio.positions := by
    obtain ⟨portfolio, matching, rfl, books, -⟩ := shadows
    exact books.positions
  unfold BacktestEngine.settleToken
  cases config.settlements.get? tokenId with
  | none => exact shadows
  | some settlement =>
    simp only
    cases settlement.settlePrice with
    | none => exact shadows
    | some price =>
      simp only [positions]
      exact each price _ _ fast full shadows

theorem Shadows.settleSchedule (shadows : Shadows seen past now fast full) (config : BacktestConfig σ π ρ) (time : Instant)
    (schedule : List (Instant × String)) :
    Shadows seen past now (settleSchedule config time schedule fast) (settleSchedule config time schedule full) := by
  induction schedule generalizing fast full with
  | nil =>
    obtain ⟨portfolio, matching, rfl, rest⟩ := shadows
    exact ⟨portfolio, matching, rfl, rest⟩
  | cons entry rest ih =>
    obtain ⟨due, tokenId⟩ := entry
    simp only [BacktestEngine.settleSchedule]
    split_ifs
    · exact ih (shadows.settleToken config time tokenId)
    · obtain ⟨portfolio, matching, rfl, others⟩ := shadows
      exact ⟨portfolio, matching, rfl, others⟩

theorem Shadows.settleDue (shadows : Shadows seen past now fast full) (config : BacktestConfig σ π ρ) (time : Instant) :
    Shadows seen past now (settleDue config time fast) (settleDue config time full) := by
  have same : full.resolutionSchedule = fast.resolutionSchedule := by
    obtain ⟨portfolio, matching, rfl, -⟩ := shadows
    rfl
  rw [BacktestEngine.settleDue, BacktestEngine.settleDue, same]
  exact shadows.settleSchedule config time fast.resolutionSchedule

theorem Shadows.submit (shadows : Shadows seen past now fast full) (config : BacktestConfig σ π ρ) (order : NewOrder) :
    Agree (Shadows seen past now) (submit config fast order) (submit config full order) := by
  obtain ⟨portfolio, matching, rfl, books, engines, clock, clockFull⟩ := shadows
  unfold BacktestEngine.submit
  simp only
  generalize config.sampleSubmit fast.latency order.submittedAt = drawn
  have agree := engines.submit config.matching order drawn.2
  generalize fast.matching.submit config.matching order drawn.2 = first at agree ⊢
  generalize matching.submit config.matching order drawn.2 = second at agree ⊢
  cases agree with
  | raised error => exact .raised error
  | returned results =>
    obtain ⟨shadowsNext, same, sameFull⟩ := results
    exact .returned ⟨portfolio, _, rfl, books, shadowsNext, same.trans clock, sameFull.trans clockFull⟩

theorem Shadows.submitEntry (shadows : Shadows seen past now fast full) (config : BacktestConfig σ π ρ) (intent : TradeIntent) :
    Agree (Shadows seen past now) (submitEntry config fast intent) (submitEntry config full intent) := by
  have gate : ∀ price size, full.portfolio.canSubmit intent.tokenId intent.side price size intent.strategySlug =
      fast.portfolio.canSubmit intent.tokenId intent.side price size intent.strategySlug := by
    obtain ⟨portfolio, matching, rfl, books, -⟩ := shadows
    exact fun price size => books.canSubmit _ _ _ _ _
  have named : full.idsMade = fast.idsMade := by
    obtain ⟨portfolio, matching, rfl, -⟩ := shadows
    rfl
  have counted : Shadows seen past now { fast with idsMade := fast.idsMade + 1 } { full with idsMade := fast.idsMade + 1 } := by
    obtain ⟨portfolio, matching, rfl, rest⟩ := shadows
    exact ⟨portfolio, matching, rfl, rest⟩
  unfold BacktestEngine.submitEntry
  rw [gate, named]
  cases fast.portfolio.canSubmit intent.tokenId intent.side intent.limitPrice intent.size intent.strategySlug with
  | some refused => exact .returned shadows
  | none =>
    simp only
    split_ifs
    · exact counted.submit config _
    · exact shadows.submit config _

theorem Shadows.drainIntents (shadows : Shadows seen past now fast full) (config : BacktestConfig σ π ρ) (time : Instant)
    (intents : List TradeIntent) :
    Agree (Shadows seen past now) (drainIntents config time intents fast) (drainIntents config time intents full) := by
  have left : ∀ intents : List TradeIntent,
      Shadows seen past now { fast with pendingIntents := intents } { full with pendingIntents := intents } := by
    intro intents
    obtain ⟨portfolio, matching, rfl, rest⟩ := shadows
    exact ⟨portfolio, matching, rfl, rest⟩
  induction intents generalizing fast full with
  | nil => exact .returned (left [])
  | cons intent rest ih =>
    simp only [BacktestEngine.drainIntents]
    split_ifs
    · have agree := shadows.submitEntry config intent
      generalize BacktestEngine.submitEntry config fast intent = first at agree ⊢
      generalize BacktestEngine.submitEntry config full intent = second at agree ⊢
      cases agree with
      | raised error => exact .raised error
      | returned results =>
        refine ih results fun intents => ?_
        obtain ⟨portfolio, matching, rfl, others⟩ := results
        exact ⟨portfolio, matching, rfl, others⟩
    · exact .returned (left _)

theorem Shadows.applyFill (shadows : Shadows seen past now fast full) (config : BacktestConfig σ π ρ) (fill : Fill) :
    Shadows seen past now (applyFill config fast fill) (applyFill config full fill) := by
  obtain ⟨portfolio, matching, rfl, books, engines, clocks⟩ := shadows
  have orders : matching.orders = fast.matching.orders := by
    obtain ⟨shown, time, rfl⟩ := engines.rebooked
    rfl
  unfold BacktestEngine.applyFill
  simp only [orders]
  cases fast.matching.orders.get? fill.orderId with
  | none => exact ⟨portfolio, matching, rfl, books, engines, clocks⟩
  | some order => exact ⟨_, matching, rfl, books.applyFill fill order.strategySlug, engines, clocks⟩

theorem Shadows.applyFills (shadows : Shadows seen past now fast full) (config : BacktestConfig σ π ρ) (fills : List Fill) :
    Shadows seen past now (fills.foldl (BacktestEngine.applyFill config) fast) (fills.foldl (BacktestEngine.applyFill config) full) := by
  induction fills generalizing fast full with
  | nil => exact shadows
  | cons fill rest ih => exact ih (shadows.applyFill config fill)

theorem Shadows.markAt (shadows : Shadows seen past now fast full) (snapshot : BookSnapshot) :
    Shadows seen past now (fast.markAt snapshot) (full.markAt snapshot) := by
  unfold BacktestEngine.markAt
  cases snapshot.mid with
  | none => exact shadows
  | some mid =>
    obtain ⟨portfolio, matching, rfl, books, others⟩ := shadows
    exact ⟨_, matching, rfl, books.mark snapshot.tokenId mid snapshot.observedAt, others⟩

theorem Shadows.submitSingleExit (shadows : Shadows seen past now fast full) (config : BacktestConfig σ π ρ) (position : Position)
    (side : Side) (size price : ℚ) (tif : Tif) (postOnly : Bool) (snapshot : BookSnapshot) :
    Agree (Shadows seen past now) (submitSingleExit config fast position side size price tif postOnly snapshot)
      (submitSingleExit config full position side size price tif postOnly snapshot) := by
  have named : full.idsMade = fast.idsMade := by
    obtain ⟨portfolio, matching, rfl, -⟩ := shadows
    rfl
  have counted : Shadows seen past now { fast with idsMade := fast.idsMade + 1 } { full with idsMade := fast.idsMade + 1 } := by
    obtain ⟨portfolio, matching, rfl, rest⟩ := shadows
    exact ⟨portfolio, matching, rfl, rest⟩
  unfold BacktestEngine.submitSingleExit
  rw [named]
  exact counted.submit config _

theorem Shadows.submitChildren (shadows : Shadows seen past now fast full) (config : BacktestConfig σ π ρ) (position : Position)
    (side : Side) (snapshot : BookSnapshot) (plans : List ChildPlan) :
    Agree (Shadows seen past now) (submitChildren config position side snapshot plans fast)
      (submitChildren config position side snapshot plans full) := by
  induction plans generalizing fast full with
  | nil => exact .returned shadows
  | cons plan rest ih =>
    have agree := shadows.submitSingleExit config position side plan.size plan.price plan.tif plan.postOnly snapshot
    simp only [BacktestEngine.submitChildren]
    generalize BacktestEngine.submitSingleExit config fast position side plan.size plan.price plan.tif plan.postOnly snapshot =
      first at agree ⊢
    generalize BacktestEngine.submitSingleExit config full position side plan.size plan.price plan.tif plan.postOnly snapshot =
      second at agree ⊢
    cases agree with
    | raised error => exact .raised error
    | returned results => exact ih results

theorem Shadows.asked (shadows : Shadows seen past now fast full) (state : σ) :
    Shadows seen past now { fast with strategy := state } { full with strategy := state } := by
  obtain ⟨portfolio, matching, rfl, rest⟩ := shadows
  exact ⟨portfolio, matching, rfl, rest⟩

theorem Shadows.strategy (shadows : Shadows seen past now fast full) : full.strategy = fast.strategy := by
  obtain ⟨portfolio, matching, rfl, -⟩ := shadows
  rfl

theorem Shadows.submitPlanned (shadows : Shadows seen past now fast full) (config : BacktestConfig σ π ρ) (position : Position)
    (targetSize closePrice : ℚ) (closeTrigger : String) (policy : Option π) (snapshot : BookSnapshot) :
    Agree (Shadows seen past now) (submitPlanned config fast position targetSize closePrice closeTrigger policy snapshot)
      (submitPlanned config full position targetSize closePrice closeTrigger policy snapshot) := by
  unfold BacktestEngine.submitPlanned
  cases policy with
  | none => exact shadows.submitSingleExit config _ _ _ _ _ _ _
  | some policy =>
    simp only
    split
    · exact shadows.submitSingleExit config _ _ _ _ _ _ _
    · exact shadows.submitChildren config _ _ _ _

theorem Shadows.submitExitFor (shadows : Shadows seen past now fast full) (config : BacktestConfig σ π ρ) (position : Position)
    (decision : ExitDecision) (fraction : ℚ) (snapshot : BookSnapshot) :
    Agree (Shadows seen past now) (submitExitFor config fast position decision fraction snapshot)
      (submitExitFor config full position decision fraction snapshot) := by
  unfold BacktestEngine.submitExitFor
  rw [shadows.strategy]
  split_ifs
  · exact .returned shadows
  · exact (shadows.asked _).submitPlanned config _ _ _ _ _ _
  · exact (shadows.asked _).submitPlanned config _ _ _ _ _ _

theorem Shadows.evaluateExit (shadows : Shadows seen past now fast full) (config : BacktestConfig σ π ρ) (snapshot : BookSnapshot)
    (pos : Position) :
    Agree (Shadows seen past now) (evaluateExit config snapshot fast pos) (evaluateExit config snapshot full pos) := by
  have acts : ∀ (first second : BacktestEngine σ ρ) (decision : Option ExitDecision), Shadows seen past now first second →
      Agree (Shadows seen past now) (act config first pos snapshot decision) (act config second pos snapshot decision) := by
    intro first second decision start
    unfold act
    cases decision with
    | none => exact .returned start
    | some decision =>
      simp only
      cases decision.action with
      | hold => exact .returned start
      | reduce =>
        simp only
        split_ifs
        · exact .returned start
        · exact start.submitExitFor config pos decision _ snapshot
      | close => exact start.submitExitFor config pos decision 1 snapshot
  rw [BacktestEngine.evaluateExit, BacktestEngine.evaluateExit, shadows.strategy]
  exact acts _ _ _ (shadows.asked _)

theorem Shadows.evaluateExits (shadows : Shadows seen past now fast full) (config : BacktestConfig σ π ρ) (snapshot : BookSnapshot)
    (targets : List Position) :
    Agree (Shadows seen past now) (evaluateExits config snapshot targets fast) (evaluateExits config snapshot targets full) := by
  induction targets generalizing fast full with
  | nil => exact .returned shadows
  | cons pos rest ih =>
    have agree := shadows.evaluateExit config snapshot pos
    simp only [BacktestEngine.evaluateExits]
    generalize BacktestEngine.evaluateExit config snapshot fast pos = first at agree ⊢
    generalize BacktestEngine.evaluateExit config snapshot full pos = second at agree ⊢
    cases agree with
    | raised error => exact .raised error
    | returned results => exact ih results

theorem Shadows.notifyCancels (shadows : Shadows seen past now fast full) (config : BacktestConfig σ π ρ) :
    Shadows seen past now (notifyCancels config fast) (notifyCancels config full) := by
  have each : ∀ (orders : List BacktestOrder) (first second : BacktestEngine σ ρ), Shadows seen past now first second →
      Shadows seen past now (orders.foldl (notifyCancel config) first) (orders.foldl (notifyCancel config) second) := by
    intro orders
    induction orders with
    | nil => exact fun _ _ start => start
    | cons order rest ih =>
      intro first second start
      apply ih
      obtain ⟨portfolio, matching, rfl, others⟩ := start
      unfold notifyCancel
      simp only
      by_cases heard : order.state ≠ .cancelled ∨ order.orderId ∈ first.cancelledNotified
      · rw [if_pos heard, if_pos heard]
        exact ⟨portfolio, matching, rfl, others⟩
      · rw [if_neg heard, if_neg heard]
        exact ⟨portfolio, matching, rfl, others⟩
  have orders : full.matching.orders = fast.matching.orders := by
    obtain ⟨portfolio, matching, rfl, -, engines, -⟩ := shadows
    obtain ⟨shown, time, rfl⟩ := engines.rebooked
    rfl
  rw [BacktestEngine.notifyCancels, BacktestEngine.notifyCancels, orders]
  exact each _ fast full shadows

end BacktestEngine

end Callisto.Backtest
