import Callisto.Library.Runs
import Callisto.Hot.RiskTotals

/-! What the totals of the risk gate stand for: for each trader and mode, the last resolution of every order, and the
orders counted as losses since the last win. -/

namespace Callisto.Hot

open Callisto.Library
open Callisto.Ws (strip)

structure OrderHistory where
  profits : Dict String (ℕ × ℚ) := Dict.empty
  outcomes : Dict String (String × Bool) := Dict.empty
  counted : Finset String := ∅

namespace OrderHistory

def profitOn (history : OrderHistory) (day : ℕ) : ℚ := history.profits.sumBy fun entry => if entry.1 = day then entry.2 else 0

/-- The last status and thesis loss of an order, whenever it was recorded. -/
def last (history : OrderHistory) (orderId : String) : Option String × Bool :=
  ((history.outcomes.get? orderId).map Prod.fst, ((history.outcomes.get? orderId).map Prod.snd).getD false)

/-- An order that turns into a thesis loss is counted, and one that turns into a win ends the count. -/
def resolve (history : OrderHistory) (day : ℕ) (orderId status : String) (profit : ℚ) (countsAsThesisLoss : Bool) : OrderHistory :=
  { profits := if orderId = "" then history.profits else history.profits.set orderId (day, profit)
    outcomes := history.outcomes.set orderId (status, countsAsThesisLoss)
    counted :=
      if countsAsThesisLoss = true ∧ (history.last orderId).2 = false then insert orderId history.counted
      else if isWin (some status) = true ∧ isWin (history.last orderId).1 = false then ∅ else history.counted }

end OrderHistory

structure Resolution where
  traderId : String
  mode : String
  orderId : String
  status : String
  profit : ℚ
  countsAsThesisLoss : Bool

structure RiskEvent where
  today : ℕ
  call : RiskCall

structure RiskRun where
  state : RiskState := {}
  histories : Dict SnapshotKey OrderHistory := Dict.empty
  clock : ℕ := 0

def RiskRun.historyOf (run : RiskRun) (key : SnapshotKey) : OrderHistory := (run.histories.get? key).getD {}

section
variable (lower : String → String)

def Resolution.key (resolution : Resolution) : SnapshotKey := (resolution.traderId, modeKey lower resolution.mode)

def RiskCall.resolution (today : ℕ) : RiskCall → Option Resolution
  | .recordOrderResolved traderId mode orderId status actualProfit payload resolvedOn =>
    if isRealizedStatus lower status ∧ resolvedOn = today then
      some ⟨traderId, mode, strip orderId, statusKey lower status, actualProfit,
        orderLossCountsForConsecutiveHalt lower (statusKey lower status) payload⟩
    else none
  | .upsertActiveOrder .. => none
  | .recordOrderCancelled .. => none

def RiskRun.step (run : RiskRun) (event : RiskEvent) : RiskRun where
  state := run.state.call lower event.today event.call
  histories := match event.call.resolution lower event.today with
    | none => run.histories
    | some resolved => run.histories.set (resolved.key lower)
        ((run.historyOf (resolved.key lower)).resolve event.today resolved.orderId resolved.status resolved.profit resolved.countsAsThesisLoss)
  clock := event.today

/-- The totals are what the calls so far make them, on this day and on every later one. -/
structure TotalsHold (run : RiskRun) : Prop where
  views : ∀ key snap, run.state.snapshots.get? key = some snap → Shows snap.views snap.activeOrders
  gross : ∀ mode, run.state.getGrossExposure lower mode = RiskState.grossOf run.state.snapshots (modeKey lower mode)
  traderPnl : ∀ traderId mode day, run.clock ≤ day →
    run.state.getDailyRealizedPnl lower (some traderId) mode day = (run.historyOf (traderId, modeKey lower mode)).profitOn day
  modePnl : ∀ mode day, run.clock ≤ day → run.state.getDailyRealizedPnl lower none mode day =
    run.histories.sumEntries fun key history => if key.2 = modeKey lower mode then history.profitOn day else 0
  losses : ∀ traderId mode,
    run.state.getConsecutiveLossCount lower traderId mode = (run.historyOf (traderId, modeKey lower mode)).counted.card

/-- What the dictionaries of the day hold of an order, when a call is made. -/
def RiskRun.remembered (run : RiskRun) (today : ℕ) (resolved : Resolution) : Option String × Bool :=
  ((run.state.snapshotOf (resolved.key lower)).rollDay today).previous resolved.orderId

/-- An order without an id brings no profit. An order that turns into a loss by what is remembered of it was no loss when it
was last resolved, and is not counted yet. One that turns into a win by what is remembered was no win, or nothing is counted. -/
def RiskRun.Recordable (run : RiskRun) (today : ℕ) (resolved : Resolution) : Prop :=
  let remembered := run.remembered lower today resolved
  let history := run.historyOf (resolved.key lower)
  let becomesLoss := resolved.countsAsThesisLoss = true ∧ remembered.2 = false
  (resolved.orderId ≠ "" ∨ resolved.profit = 0) ∧
    (becomesLoss → (history.last resolved.orderId).2 = false ∧ resolved.orderId ∉ history.counted) ∧
    (¬becomesLoss → isWin (some resolved.status) = true → isWin remembered.1 = false →
      isWin (history.last resolved.orderId).1 = false ∨ history.counted = ∅)

instance (run : RiskRun) (today : ℕ) (resolved : Resolution) : Decidable (run.Recordable lower today resolved) :=
  inferInstanceAs (Decidable (_ ∧ (_ → _ ∧ _) ∧ (_ → _ → _ → _ ∨ _)))

def RiskRun.Sound (run : RiskRun) (event : RiskEvent) : Prop :=
  ∀ resolved ∈ event.call.resolution lower event.today, run.Recordable lower event.today resolved

instance (run : RiskRun) (event : RiskEvent) : Decidable (run.Sound lower event) :=
  inferInstanceAs (Decidable (∀ resolved ∈ event.call.resolution lower event.today, run.Recordable lower event.today resolved))

end

namespace RiskSnapshot

def record (snap : RiskSnapshot) : RiskSnapshot :=
  { snap with openPositionMarketIds := ∅, activeOrders := Dict.empty, views := {} }

theorem pnlDelta_empty {snap : RiskSnapshot} (nameless : snap.dailyRealizedOrderPnl.get? "" = none) (profit : ℚ) :
    snap.pnlDelta "" profit = profit := by
  unfold pnlDelta
  rw [nameless]

theorem rollDay_date (snap : RiskSnapshot) (today : ℕ) : (snap.rollDay today).dailyPnlDate = some today := by
  unfold rollDay
  by_cases same : snap.dailyPnlDate = some today
  · rw [if_pos same, same]
  · rw [if_neg same]

theorem rollDay_pnl (snap : RiskSnapshot) (today : ℕ) : (snap.rollDay today).dailyRealizedPnl = RiskState.pnlOn snap today := by
  unfold rollDay RiskState.pnlOn
  by_cases same : snap.dailyPnlDate = some today
  · rw [if_pos same, if_pos same]
  · rw [if_neg same, if_neg same]

theorem rollDay_views (snap : RiskSnapshot) (today : ℕ) :
    (snap.rollDay today).views = snap.views ∧ (snap.rollDay today).activeOrders = snap.activeOrders := by
  unfold rollDay
  by_cases same : snap.dailyPnlDate = some today
  · rw [if_pos same]
    exact ⟨rfl, rfl⟩
  · rw [if_neg same]
    exact ⟨rfl, rfl⟩

theorem rollDay_losses (snap : RiskSnapshot) (today : ℕ) : (snap.rollDay today).consecutiveLosses = snap.consecutiveLosses := by
  unfold rollDay
  by_cases same : snap.dailyPnlDate = some today
  · rw [if_pos same]
  · rw [if_neg same]

theorem rollDay_record (snap : RiskSnapshot) (today : ℕ) : (snap.rollDay today).record = (snap.record).rollDay today := by
  unfold rollDay record
  by_cases same : snap.dailyPnlDate = some today
  · simp only [if_pos same]
  · simp only [if_neg same]

def streakAfter (snap : RiskSnapshot) (orderId status : String) (countsAsThesisLoss : Bool) : ℕ :=
  if countsAsThesisLoss = true ∧ (snap.previous orderId).2 = false then snap.consecutiveLosses + 1
  else if isWin (some status) = true ∧ isWin (snap.previous orderId).1 = false then 0 else snap.consecutiveLosses

theorem recordStreak_eq (snap : RiskSnapshot) (orderId status : String) (countsAsThesisLoss : Bool) :
    snap.recordStreak orderId status countsAsThesisLoss = { snap with
      resolvedOrderStatuses := if orderId = "" then snap.resolvedOrderStatuses else snap.resolvedOrderStatuses.set orderId status
      resolvedOrderThesisLosses :=
        if orderId = "" then snap.resolvedOrderThesisLosses else snap.resolvedOrderThesisLosses.set orderId countsAsThesisLoss
      consecutiveLosses := snap.streakAfter orderId status countsAsThesisLoss } := by
  unfold recordStreak streakAfter
  by_cases repeated : (snap.previous orderId).1 = some status ∧ (snap.previous orderId).2 = countsAsThesisLoss
  · have no_loss : ¬(countsAsThesisLoss = true ∧ (snap.previous orderId).2 = false) := by
      intro both
      rw [repeated.2, both.1] at both
      exact absurd both.2 (by decide)
    have no_win : ¬(isWin (some status) = true ∧ isWin (snap.previous orderId).1 = false) := by
      intro both
      rw [repeated.1, both.1] at both
      exact absurd both.2 (by decide)
    simp only [if_pos repeated, if_neg no_loss, if_neg no_win]
  · simp only [if_neg repeated]
    by_cases loss : countsAsThesisLoss = true ∧ (snap.previous orderId).2 = false
    · simp only [if_pos loss]
    · simp only [if_neg loss]
      by_cases win : isWin (some status) = true ∧ isWin (snap.previous orderId).1 = false
      · simp only [if_pos win]
      · simp only [if_neg win]

end RiskSnapshot

end Callisto.Hot
