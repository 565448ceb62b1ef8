import Callisto.Hot.RiskHistory

/-! The totals of the risk gate follow the history of the orders exactly while every resolution is recordable. -/

namespace Callisto.Hot

open Callisto.Library
open Callisto.Ws (strip)

theorem shows_empty : Shows {} Dict.empty := shows_rebuild {}

namespace RiskState

theorem snapshotOf_set (state : RiskState) (key other : SnapshotKey) (snap : RiskSnapshot) :
    ((state.snapshots.set key snap).get? other).getD {} = if key = other then snap else state.snapshotOf other := by
  rw [Dict.get?_set]
  by_cases same : key = other
  · rw [if_pos same, if_pos same, Option.getD_some]
  · rw [if_neg same, if_neg same]
    rfl

theorem grossOf_set_other {key : SnapshotKey} {mode : String} (other : key.2 ≠ mode) (snapshots : Dict SnapshotKey RiskSnapshot)
    (snap : RiskSnapshot) : grossOf (snapshots.set key snap) mode = grossOf snapshots mode := by
  unfold grossOf
  rw [Dict.sumEntries_set, if_neg other, add_zero]
  cases found : snapshots.get? key with
  | none => simp
  | some held => simp [other]

theorem grossOf_set_same {state : RiskState} {key : SnapshotKey} {snap : RiskSnapshot} (same : snap.views = (state.snapshotOf key).views)
    (mode : String) : grossOf (state.snapshots.set key snap) mode = grossOf state.snapshots mode := by
  unfold grossOf
  rw [Dict.sumEntries_set, same]
  unfold snapshotOf
  cases found : state.snapshots.get? key with
  | none => simp
  | some held => simp

structure ViewsHold (state : RiskState) : Prop where
  shows : ∀ key snap, state.snapshots.get? key = some snap → Shows snap.views snap.activeOrders
  gross : ∀ mode, (state.globalGross.get? mode).getD 0 = grossOf state.snapshots mode

theorem ViewsHold.shows_of {state : RiskState} (hold : ViewsHold state) (key : SnapshotKey) :
    Shows (state.snapshotOf key).views (state.snapshotOf key).activeOrders := by
  unfold snapshotOf
  cases found : state.snapshots.get? key with
  | none => exact shows_empty
  | some snap => exact hold.shows key snap found

theorem ViewsHold.setOrders {state : RiskState} (hold : ViewsHold state) (key : SnapshotKey) (orders : Dict String TrackedOrder) :
    ViewsHold (state.setOrders key orders) := by
  constructor
  · intro other snap found
    unfold RiskState.setOrders at found
    simp only [Dict.get?_set] at found
    by_cases same : key = other
    · rw [if_pos same] at found
      rw [← Option.some.inj found]
      exact shows_rebuild _
    · rw [if_neg same] at found
      exact hold.shows other snap found
  · intro mode
    unfold RiskState.setOrders
    simp only [Dict.get?_set]
    by_cases same : key.2 = mode
    · rw [if_pos same, Option.getD_some, same]
    · rw [if_neg same, grossOf_set_other same]
      exact hold.gross mode

theorem ViewsHold.replace {state after : RiskState} (hold : ViewsHold state) {key : SnapshotKey} {snap : RiskSnapshot}
    (views : snap.views = (state.snapshotOf key).views) (orders : snap.activeOrders = (state.snapshotOf key).activeOrders)
    (snapshots : after.snapshots = state.snapshots.set key snap) (gross : after.globalGross = state.globalGross) : ViewsHold after := by
  constructor
  · intro other held found
    rw [snapshots, Dict.get?_set] at found
    by_cases same : key = other
    · rw [if_pos same] at found
      rw [← Option.some.inj found, views, orders]
      exact hold.shows_of key
    · rw [if_neg same] at found
      exact hold.shows other held found
  · intro mode
    rw [snapshots, gross, grossOf_set_same views]
    exact hold.gross mode

/-- Only active orders, and what is read off them, have changed. -/
structure OrdersOnly (before after : RiskState) : Prop where
  record : ∀ key, (after.snapshotOf key).record = (before.snapshotOf key).record
  pnl : after.globalDailyPnl = before.globalDailyPnl
  date : after.globalDailyPnlDate = before.globalDailyPnlDate

theorem OrdersOnly.refl (state : RiskState) : OrdersOnly state state := ⟨fun _ => rfl, rfl, rfl⟩

theorem ordersOnly_setOrders (state : RiskState) (key : SnapshotKey) (orders : Dict String TrackedOrder) :
    OrdersOnly state (state.setOrders key orders) := by
  refine ⟨fun other => ?_, rfl, rfl⟩
  have found := snapshotOf_set state key other { state.snapshotOf key with activeOrders := orders }.rebuildOrderViews
  show (RiskSnapshot.record (((state.snapshots.set key _).get? other).getD {})) = _
  rw [found]
  by_cases same : key = other
  · rw [if_pos same, ← same]
    rfl
  · rw [if_neg same]

theorem ordersOnly_ensure (state : RiskState) (key : SnapshotKey) :
    OrdersOnly state { state with snapshots := state.snapshots.set key (state.snapshotOf key) } := by
  refine ⟨fun other => ?_, rfl, rfl⟩
  have found := snapshotOf_set state key other (state.snapshotOf key)
  show (RiskSnapshot.record (((state.snapshots.set key _).get? other).getD {})) = _
  rw [found]
  by_cases same : key = other
  · rw [if_pos same, same]
  · rw [if_neg same]

section
variable (lower : String → String)

theorem call_spec (state : RiskState) (today : ℕ) (call : RiskCall) : ∃ moved : RiskState, OrdersOnly state moved ∧
    (ViewsHold state → ViewsHold moved) ∧ state.call lower today call = match call.resolution lower today with
      | none => moved
      | some resolved => moved.realize (resolved.key lower) today resolved.orderId resolved.status resolved.profit resolved.countsAsThesisLoss := by
  cases call with
  | upsertActiveOrder traderId mode orderId args =>
    by_cases nameless : strip orderId = ""
    · refine ⟨_, ordersOnly_ensure state (traderId, modeKey lower mode), fun hold => hold.replace rfl rfl rfl rfl, ?_⟩
      simp only [RiskState.call, RiskCall.resolution, if_pos nameless]
    · refine ⟨_, ordersOnly_setOrders state (traderId, modeKey lower mode)
        ((state.snapshotOf (traderId, modeKey lower mode)).activeOrders.set (strip orderId) (args.tracked lower)),
        fun hold => hold.setOrders _ _, ?_⟩
      simp only [RiskState.call, RiskCall.resolution, if_neg nameless]
  | recordOrderResolved traderId mode orderId status actualProfit payload resolvedOn =>
    refine ⟨_, ordersOnly_setOrders state (traderId, modeKey lower mode)
      ((state.snapshotOf (traderId, modeKey lower mode)).activeOrders.erase (strip orderId)), fun hold => hold.setOrders _ _, ?_⟩
    by_cases realized : isRealizedStatus lower status ∧ resolvedOn = today
    · simp only [RiskState.call, RiskCall.resolution, if_pos realized]
      rfl
    · simp only [RiskState.call, RiskCall.resolution, if_neg realized]
  | recordOrderCancelled traderId mode orderId =>
    cases found : state.snapshots.get? (traderId, modeKey lower mode) with
    | none =>
      refine ⟨state, OrdersOnly.refl state, fun hold => hold, ?_⟩
      simp only [RiskState.call, RiskCall.resolution, found]
    | some snap =>
      refine ⟨_, ordersOnly_setOrders state (traderId, modeKey lower mode) (snap.activeOrders.erase (strip orderId)),
        fun hold => hold.setOrders _ _, ?_⟩
      simp only [RiskState.call, RiskCall.resolution, found]

theorem getDailyRealizedPnl_some (state : RiskState) (traderId mode : String) (day : ℕ) :
    state.getDailyRealizedPnl lower (some traderId) mode day = pnlOn (state.snapshotOf (traderId, modeKey lower mode)) day := by
  unfold getDailyRealizedPnl snapshotOf
  cases found : state.snapshots.get? (traderId, modeKey lower mode) with
  | none => simp [pnlOn, found]
  | some snap => simp [found]

theorem getConsecutiveLossCount_eq (state : RiskState) (traderId mode : String) :
    state.getConsecutiveLossCount lower traderId mode = (state.snapshotOf (traderId, modeKey lower mode)).consecutiveLosses := by
  unfold getConsecutiveLossCount snapshotOf
  cases found : state.snapshots.get? (traderId, modeKey lower mode) with
  | none => simp
  | some snap => simp

end

end RiskState

/-- The day's dictionaries of a snapshot hold what the history says of that day, up to a clock. -/
structure Remembers (snap : RiskSnapshot) (history : OrderHistory) (clock : ℕ) : Prop where
  date : ∀ last, snap.dailyPnlDate = some last → last ≤ clock
  recent : ∀ orderId day profit, history.profits.get? orderId = some (day, profit) →
    ∃ last, snap.dailyPnlDate = some last ∧ day ≤ last
  profits : ∀ orderId, snap.dailyRealizedOrderPnl.get? orderId =
    ((history.profits.get? orderId).filter fun entry => decide (snap.dailyPnlDate = some entry.1)).map Prod.snd
  named : history.profits.get? "" = none
  statuses : ∀ orderId status, snap.resolvedOrderStatuses.get? orderId = some status → orderId ≠ "" ∧
    ∃ loss, snap.resolvedOrderThesisLosses.get? orderId = some loss ∧ history.outcomes.get? orderId = some (status, loss)
  losses : ∀ orderId, snap.resolvedOrderStatuses.get? orderId = none → snap.resolvedOrderThesisLosses.get? orderId = none

namespace Remembers

variable {snap : RiskSnapshot} {history : OrderHistory} {clock today : ℕ}

theorem start (clock : ℕ) : Remembers {} {} clock := by
  constructor
  · intro last found
    cases found
  · intro orderId day profit found
    cases found
  · intro orderId
    rfl
  · rfl
  · intro orderId status found
    cases found
  · intro orderId none_
    rfl

theorem of_record {other : RiskSnapshot} (remembers : Remembers snap history clock) (same : other.record = snap.record) :
    Remembers other history clock := by
  have date : other.dailyPnlDate = snap.dailyPnlDate := (congrArg RiskSnapshot.dailyPnlDate same :)
  have profits : other.dailyRealizedOrderPnl = snap.dailyRealizedOrderPnl := (congrArg RiskSnapshot.dailyRealizedOrderPnl same :)
  have statuses : other.resolvedOrderStatuses = snap.resolvedOrderStatuses := (congrArg RiskSnapshot.resolvedOrderStatuses same :)
  have losses : other.resolvedOrderThesisLosses = snap.resolvedOrderThesisLosses :=
    (congrArg RiskSnapshot.resolvedOrderThesisLosses same :)
  constructor
  · rw [date]
    exact remembers.date
  · rw [date]
    exact remembers.recent
  · rw [date, profits]
    exact remembers.profits
  · exact remembers.named
  · rw [statuses, losses]
    exact remembers.statuses
  · rw [statuses, losses]
    exact remembers.losses

theorem later (remembers : Remembers snap history clock) (passed : clock ≤ today) : Remembers snap history today :=
  { remembers with date := fun last found => (remembers.date last found).trans passed }

theorem recorded_today (remembers : Remembers snap history clock) (passed : clock ≤ today) {orderId : String} {profit : ℚ}
    (found : history.profits.get? orderId = some (today, profit)) : snap.dailyPnlDate = some today := by
  obtain ⟨last, date, before⟩ := remembers.recent orderId today profit found
  have bounded := remembers.date last date
  have same : last = today := by omega
  rw [date, same]

theorem rollDay (remembers : Remembers snap history clock) (passed : clock ≤ today) : Remembers (snap.rollDay today) history today := by
  unfold RiskSnapshot.rollDay
  by_cases same : snap.dailyPnlDate = some today
  · rw [if_pos same]
    exact remembers.later passed
  · rw [if_neg same]
    constructor
    · intro last found
      cases found
      exact le_refl today
    · intro orderId day profit found
      obtain ⟨last, date, before⟩ := remembers.recent orderId day profit found
      have bounded := remembers.date last date
      exact ⟨today, rfl, by omega⟩
    · intro orderId
      simp only [Dict.get?_empty]
      cases found : history.profits.get? orderId with
      | none => rfl
      | some entry =>
        have other : ¬(today = entry.1) := by
          intro equal
          exact same (remembers.recorded_today passed (by rw [found, equal]))
        simp [Option.filter, other]
    · exact remembers.named
    · intro orderId status found
      simp only [Dict.get?_empty] at found
      cases found
    · intro orderId none_
      rfl

theorem resolve (remembers : Remembers snap history today) (date : snap.dailyPnlDate = some today) (orderId status : String)
    (profit : ℚ) (countsAsThesisLoss : Bool) : Remembers ((snap.recordPnl orderId profit).recordStreak orderId status countsAsThesisLoss)
      (history.resolve today orderId status profit countsAsThesisLoss) today := by
  rw [RiskSnapshot.recordStreak_eq]
  by_cases nameless : orderId = ""
  · unfold RiskSnapshot.recordPnl OrderHistory.resolve
    simp only [if_pos nameless]
    refine { remembers with statuses := fun other held found => ?_ }
    obtain ⟨named, loss, lost, outcome⟩ := remembers.statuses other held found
    refine ⟨named, loss, lost, ?_⟩
    rw [Dict.get?_set, nameless, if_neg (Ne.symm named)]
    exact outcome
  · unfold RiskSnapshot.recordPnl OrderHistory.resolve
    simp only [if_neg nameless]
    constructor
    · exact remembers.date
    · intro other day held found
      rw [Dict.get?_set] at found
      by_cases same : orderId = other
      · rw [if_pos same] at found
        cases found
        exact ⟨today, date, le_refl today⟩
      · rw [if_neg same] at found
        exact remembers.recent other day held found
    · intro other
      rw [Dict.get?_set, Dict.get?_set]
      by_cases same : orderId = other
      · rw [if_pos same, if_pos same]
        simp [Option.filter, date]
      · rw [if_neg same, if_neg same]
        exact remembers.profits other
    · rw [Dict.get?_set, if_neg nameless]
      exact remembers.named
    · intro other held found
      rw [Dict.get?_set] at found
      simp only [Dict.get?_set]
      by_cases same : orderId = other
      · rw [if_pos same] at found
        cases found
        rw [← same]
        exact ⟨nameless, countsAsThesisLoss, by simp, by simp⟩
      · rw [if_neg same] at found
        simp only [if_neg same]
        exact remembers.statuses other held found
    · intro other absent
      rw [Dict.get?_set] at absent
      rw [Dict.get?_set]
      by_cases same : orderId = other
      · rw [if_pos same] at absent
        cases absent
      · rw [if_neg same] at absent
        rw [if_neg same]
        exact remembers.losses other absent

theorem profitOn_later (remembers : Remembers snap history clock) (passed : clock < today) : history.profitOn today = 0 := by
  apply List.sum_eq_zero
  intro amount member
  obtain ⟨value, held, rfl⟩ := List.mem_map.1 member
  obtain ⟨entry, stored, rfl⟩ := List.mem_map.1 held
  obtain ⟨last, date, before⟩ := remembers.recent entry.1 entry.2.1 entry.2.2 (Dict.get?_of_mem stored)
  have bounded := remembers.date last date
  have other : entry.2.1 ≠ today := by omega
  exact if_neg other

theorem pnlOn_later (remembers : Remembers snap history clock) (passed : clock < today) : RiskState.pnlOn snap today = 0 := by
  unfold RiskState.pnlOn
  have other : snap.dailyPnlDate ≠ some today := by
    intro date
    have bounded := remembers.date today date
    omega
  rw [if_neg other]

theorem profitOn_resolve (remembers : Remembers snap history today) (date : snap.dailyPnlDate = some today) (orderId status : String)
    (profit : ℚ) (countsAsThesisLoss : Bool) : (history.resolve today orderId status profit countsAsThesisLoss).profitOn today =
      history.profitOn today + if orderId = "" then 0 else snap.pnlDelta orderId profit := by
  unfold OrderHistory.resolve OrderHistory.profitOn
  by_cases nameless : orderId = ""
  · simp only [if_pos nameless, add_zero]
  · simp only [if_neg nameless]
    have remembered := remembers.profits orderId
    rw [Dict.sumBy_set, if_pos rfl]
    unfold RiskSnapshot.pnlDelta
    rw [remembered, date]
    cases found : history.profits.get? orderId with
    | none => simp
    | some entry =>
      by_cases same : entry.1 = today
      · simp [Option.filter, same]
        ring
      · have other : ¬(today = entry.1) := fun equal => same equal.symm
        simp [Option.filter, same, other]

theorem previous_cases (remembers : Remembers snap history clock) (orderId : String) :
    snap.previous orderId = (none, false) ∨ snap.previous orderId = history.last orderId := by
  unfold RiskSnapshot.previous OrderHistory.last
  cases found : snap.resolvedOrderStatuses.get? orderId with
  | none =>
    left
    rw [remembers.losses orderId found]
    rfl
  | some status =>
    right
    obtain ⟨-, loss, lost, outcome⟩ := remembers.statuses orderId status found
    rw [lost, outcome]
    rfl

/-- The streak follows the count exactly where what is remembered of the order decides as its whole history does. -/
theorem streak_iff (remembers : Remembers snap history clock) (agree : snap.consecutiveLosses = history.counted.card)
    (day : ℕ) (orderId status : String) (profit : ℚ) (countsAsThesisLoss : Bool) :
    snap.streakAfter orderId status countsAsThesisLoss =
        (history.resolve day orderId status profit countsAsThesisLoss).counted.card ↔
      (countsAsThesisLoss = true ∧ (snap.previous orderId).2 = false →
        (history.last orderId).2 = false ∧ orderId ∉ history.counted) ∧
      (¬(countsAsThesisLoss = true ∧ (snap.previous orderId).2 = false) → isWin (some status) = true →
        isWin (snap.previous orderId).1 = false → isWin (history.last orderId).1 = false ∨ history.counted = ∅) := by
  unfold RiskSnapshot.streakAfter OrderHistory.resolve
  simp only [agree]
  by_cases becomes : countsAsThesisLoss = true ∧ (snap.previous orderId).2 = false
  · have later : ∀ claim : Prop, (¬(countsAsThesisLoss = true ∧ (snap.previous orderId).2 = false) → claim) ↔ True :=
      fun claim => iff_true_intro fun absent => absurd becomes absent
    rw [if_pos becomes, later, and_true]
    by_cases before : (history.last orderId).2 = false
    · rw [if_pos ⟨becomes.1, before⟩]
      by_cases counted : orderId ∈ history.counted
      · rw [Finset.insert_eq_of_mem counted]
        simp [becomes, counted]
      · rw [Finset.card_insert_of_notMem counted]
        simp [before, counted]
    · rw [if_neg fun both => before both.2]
      have apart : history.counted.card + 1 ≠
          (if isWin (some status) = true ∧ isWin (history.last orderId).1 = false then ∅ else history.counted).card := by
        split
        · rw [Finset.card_empty]
          omega
        · omega
      simp [becomes, before, apart]
  · have steady : ¬(countsAsThesisLoss = true ∧ (history.last orderId).2 = false) := by
      intro both
      cases remembers.previous_cases orderId with
      | inl nothing =>
        rw [nothing] at becomes
        exact becomes ⟨both.1, rfl⟩
      | inr same =>
        rw [same] at becomes
        exact becomes both
    rw [if_neg becomes, if_neg steady]
    simp only [becomes, false_implies, true_and, not_false_eq_true, true_implies]
    by_cases wins : isWin (some status) = true ∧ isWin (snap.previous orderId).1 = false
    · rw [if_pos wins]
      by_cases before : isWin (history.last orderId).1 = false
      · rw [if_pos ⟨wins.1, before⟩]
        simp [before]
      · rw [if_neg fun both => before both.2]
        rw [eq_comm, Finset.card_eq_zero]
        simp [wins, before]
    · have unchanged : ¬(isWin (some status) = true ∧ isWin (history.last orderId).1 = false) := by
        intro both
        cases remembers.previous_cases orderId with
        | inl nothing =>
          rw [nothing] at wins
          exact wins ⟨both.1, by decide⟩
        | inr same =>
          rw [same] at wins
          exact wins both
      rw [if_neg wins, if_neg unchanged]
      exact iff_of_true rfl fun win lost => absurd ⟨win, lost⟩ wins

end Remembers

namespace RiskRun

structure Faithful (run : RiskRun) : Prop where
  views : RiskState.ViewsHold run.state
  memory : ∀ key, Remembers (run.state.snapshotOf key) (run.historyOf key) run.clock

theorem faithful_start : Faithful {} := by
  constructor
  · constructor
    · intro key snap found
      cases found
    · intro mode
      rfl
  · intro key
    exact Remembers.start 0

theorem historyOf_set (run : RiskRun) (key other : SnapshotKey) (history : OrderHistory) :
    ((run.histories.set key history).get? other).getD {} = if key = other then history else run.historyOf other := by
  rw [Dict.get?_set]
  by_cases same : key = other
  · rw [if_pos same, if_pos same, Option.getD_some]
  · rw [if_neg same, if_neg same]
    rfl

theorem sum_later {run : RiskRun} (faithful : run.Faithful) {day : ℕ} (passed : run.clock < day) (mode : String) :
    (run.histories.sumEntries fun key history => if key.2 = mode then history.profitOn day else 0) = 0 := by
  apply List.sum_eq_zero
  intro amount member
  obtain ⟨entry, stored, rfl⟩ := List.mem_map.1 member
  have memory := faithful.memory entry.1
  unfold historyOf at memory
  rw [Dict.get?_of_mem stored, Option.getD_some] at memory
  show (if entry.1.2 = mode then entry.2.profitOn day else 0) = 0
  rw [memory.profitOn_later passed, ite_self]

theorem sum_set (run : RiskRun) (key : SnapshotKey) (history : OrderHistory) (day : ℕ) (mode : String) :
    ((run.histories.set key history).sumEntries fun other held => if other.2 = mode then held.profitOn day else 0) =
      (run.histories.sumEntries fun other held => if other.2 = mode then held.profitOn day else 0) +
        if key.2 = mode then history.profitOn day - (run.historyOf key).profitOn day else 0 := by
  rw [Dict.sumEntries_set]
  unfold historyOf
  have none_ : OrderHistory.profitOn {} day = 0 := rfl
  by_cases same : key.2 = mode
  · cases found : run.histories.get? key with
    | none =>
      simp [same, none_]
    | some held =>
      simp [same]
      ring
  · cases found : run.histories.get? key with
    | none => simp [same]
    | some held => simp [same]

section
variable (lower : String → String)

structure ProfitsHold (run : RiskRun) : Prop where
  trader : ∀ traderId mode day, run.clock ≤ day →
    RiskState.pnlOn (run.state.snapshotOf (traderId, modeKey lower mode)) day = (run.historyOf (traderId, modeKey lower mode)).profitOn day
  mode : ∀ mode day, run.clock ≤ day → run.state.getDailyRealizedPnl lower none mode day =
    run.histories.sumEntries fun key history => if key.2 = modeKey lower mode then history.profitOn day else 0
  losses : ∀ traderId mode,
    (run.state.snapshotOf (traderId, modeKey lower mode)).consecutiveLosses = (run.historyOf (traderId, modeKey lower mode)).counted.card

theorem totalsHold_iff {run : RiskRun} (faithful : run.Faithful) : TotalsHold lower run ↔ run.ProfitsHold lower := by
  constructor
  · intro hold
    constructor
    · intro traderId mode day passed
      rw [← RiskState.getDailyRealizedPnl_some]
      exact hold.traderPnl traderId mode day passed
    · exact hold.modePnl
    · intro traderId mode
      rw [← RiskState.getConsecutiveLossCount_eq]
      exact hold.losses traderId mode
  · intro hold
    constructor
    · exact faithful.views.shows
    · intro mode
      exact faithful.views.gross (modeKey lower mode)
    · intro traderId mode day passed
      rw [RiskState.getDailyRealizedPnl_some]
      exact hold.trader traderId mode day passed
    · exact hold.mode
    · intro traderId mode
      rw [RiskState.getConsecutiveLossCount_eq]
      exact hold.losses traderId mode

theorem pnlOn_of_record {snap other : RiskSnapshot} (same : other.record = snap.record) (day : ℕ) :
    RiskState.pnlOn other day = RiskState.pnlOn snap day := by
  have date : other.dailyPnlDate = snap.dailyPnlDate := (congrArg RiskSnapshot.dailyPnlDate same :)
  have pnl : other.dailyRealizedPnl = snap.dailyRealizedPnl := (congrArg RiskSnapshot.dailyRealizedPnl same :)
  unfold RiskState.pnlOn
  rw [date, pnl]

theorem profitsHold_moved {run : RiskRun} (hold : run.ProfitsHold lower) {moved : RiskState} (only : RiskState.OrdersOnly run.state moved)
    {today : ℕ} (passed : run.clock ≤ today) : ProfitsHold lower { run with state := moved, clock := today } := by
  constructor
  · intro traderId mode day later
    rw [pnlOn_of_record (only.record _)]
    exact hold.trader traderId mode day (passed.trans later)
  · intro mode day later
    have read := hold.mode mode day (passed.trans later)
    unfold RiskState.getDailyRealizedPnl at read ⊢
    rw [only.date, only.pnl]
    exact read
  · intro traderId mode
    have streak : _ = (run.state.snapshotOf (traderId, modeKey lower mode)).consecutiveLosses :=
      (congrArg RiskSnapshot.consecutiveLosses (only.record (traderId, modeKey lower mode)) :)
    exact streak.trans (hold.losses traderId mode)

theorem faithful_moved {run : RiskRun} (faithful : run.Faithful) {moved : RiskState} (only : RiskState.OrdersOnly run.state moved)
    (views : RiskState.ViewsHold moved) {today : ℕ} (passed : run.clock ≤ today) : Faithful { run with state := moved, clock := today } :=
  ⟨views, fun key => ((faithful.memory key).of_record (only.record key)).later passed⟩

def realized (run : RiskRun) (resolved : Resolution) : RiskRun :=
  { run with
    state := run.state.realize (resolved.key lower) run.clock resolved.orderId resolved.status resolved.profit resolved.countsAsThesisLoss
    histories := run.histories.set (resolved.key lower)
      ((run.historyOf (resolved.key lower)).resolve run.clock resolved.orderId resolved.status resolved.profit resolved.countsAsThesisLoss) }

def dayOf (run : RiskRun) (resolved : Resolution) : RiskSnapshot := (run.state.snapshotOf (resolved.key lower)).rollDay run.clock

variable {lower} {run : RiskRun} {resolved : Resolution}

theorem memory_of_day (faithful : run.Faithful) : Remembers (run.dayOf lower resolved) (run.historyOf (resolved.key lower)) run.clock :=
  (faithful.memory (resolved.key lower)).rollDay (le_refl run.clock)

theorem snapshotOf_realized (other : SnapshotKey) : (run.realized lower resolved).state.snapshotOf other =
    if resolved.key lower = other then ((run.dayOf lower resolved).recordPnl resolved.orderId resolved.profit).recordStreak
      resolved.orderId resolved.status resolved.countsAsThesisLoss else run.state.snapshotOf other :=
  RiskState.snapshotOf_set run.state (resolved.key lower) other _

theorem historyOf_realized (other : SnapshotKey) : (run.realized lower resolved).historyOf other =
    if resolved.key lower = other then (run.historyOf (resolved.key lower)).resolve run.clock resolved.orderId resolved.status
      resolved.profit resolved.countsAsThesisLoss else run.historyOf other :=
  historyOf_set run (resolved.key lower) other _

theorem faithful_realized (faithful : run.Faithful) : (run.realized lower resolved).Faithful := by
  constructor
  · have day := RiskSnapshot.rollDay_views (run.state.snapshotOf (resolved.key lower)) run.clock
    have views : ((((run.dayOf lower resolved).recordPnl resolved.orderId resolved.profit).recordStreak resolved.orderId
        resolved.status resolved.countsAsThesisLoss).views) = (run.state.snapshotOf (resolved.key lower)).views := by
      rw [RiskSnapshot.recordStreak_eq]
      exact day.1
    have orders : ((((run.dayOf lower resolved).recordPnl resolved.orderId resolved.profit).recordStreak resolved.orderId
        resolved.status resolved.countsAsThesisLoss).activeOrders) = (run.state.snapshotOf (resolved.key lower)).activeOrders := by
      rw [RiskSnapshot.recordStreak_eq]
      exact day.2
    exact faithful.views.replace views orders rfl rfl
  · intro other
    rw [snapshotOf_realized, historyOf_realized]
    by_cases same : resolved.key lower = other
    · rw [if_pos same, if_pos same]
      exact (memory_of_day faithful).resolve (RiskSnapshot.rollDay_date _ _) _ _ _ _
    · rw [if_neg same, if_neg same]
      exact faithful.memory other

theorem profitOn_realized (faithful : run.Faithful) :
    ((run.historyOf (resolved.key lower)).resolve run.clock resolved.orderId resolved.status resolved.profit
      resolved.countsAsThesisLoss).profitOn run.clock = (run.historyOf (resolved.key lower)).profitOn run.clock +
        if resolved.orderId = "" then 0 else (run.dayOf lower resolved).pnlDelta resolved.orderId resolved.profit :=
  (memory_of_day faithful).profitOn_resolve (RiskSnapshot.rollDay_date _ _) _ _ _ _

theorem pnlOn_realized (hold : run.ProfitsHold lower) : RiskState.pnlOn (((run.dayOf lower resolved).recordPnl resolved.orderId
    resolved.profit).recordStreak resolved.orderId resolved.status resolved.countsAsThesisLoss) run.clock =
      (run.historyOf (resolved.key lower)).profitOn run.clock + (run.dayOf lower resolved).pnlDelta resolved.orderId resolved.profit := by
  have before := hold.trader resolved.traderId resolved.mode run.clock (le_refl run.clock)
  have date : (run.dayOf lower resolved).dailyPnlDate = some run.clock := RiskSnapshot.rollDay_date _ _
  have pnl : (run.dayOf lower resolved).dailyRealizedPnl = RiskState.pnlOn (run.state.snapshotOf (resolved.key lower)) run.clock :=
    RiskSnapshot.rollDay_pnl _ _
  rw [RiskSnapshot.recordStreak_eq]
  unfold RiskState.pnlOn RiskSnapshot.recordPnl
  simp only [date, if_true]
  rw [pnl]
  exact congrArg (· + _) before

theorem delta_nameless (faithful : run.Faithful) (nameless : resolved.orderId = "") :
    (run.dayOf lower resolved).pnlDelta resolved.orderId resolved.profit = resolved.profit := by
  have memory := @memory_of_day lower run resolved faithful
  have absent := memory.profits ""
  rw [memory.named] at absent
  rw [nameless, RiskSnapshot.pnlDelta_empty absent]

theorem delta_iff (faithful : run.Faithful) : ((run.dayOf lower resolved).pnlDelta resolved.orderId resolved.profit =
    if resolved.orderId = "" then 0 else (run.dayOf lower resolved).pnlDelta resolved.orderId resolved.profit) ↔
      resolved.orderId ≠ "" ∨ resolved.profit = 0 := by
  by_cases nameless : resolved.orderId = ""
  · rw [if_pos nameless, delta_nameless faithful nameless]
    simp [nameless]
  · rw [if_neg nameless]
    simp [nameless]

theorem streak_realized (hold : run.ProfitsHold lower) (faithful : run.Faithful) :
    (((run.dayOf lower resolved).recordPnl resolved.orderId resolved.profit).recordStreak resolved.orderId resolved.status
        resolved.countsAsThesisLoss).consecutiveLosses =
      ((run.historyOf (resolved.key lower)).resolve run.clock resolved.orderId resolved.status resolved.profit
        resolved.countsAsThesisLoss).counted.card ↔
    (resolved.countsAsThesisLoss = true ∧ (run.remembered lower run.clock resolved).2 = false →
      ((run.historyOf (resolved.key lower)).last resolved.orderId).2 = false ∧
        resolved.orderId ∉ (run.historyOf (resolved.key lower)).counted) ∧
    (¬(resolved.countsAsThesisLoss = true ∧ (run.remembered lower run.clock resolved).2 = false) →
      isWin (some resolved.status) = true → isWin (run.remembered lower run.clock resolved).1 = false →
        isWin ((run.historyOf (resolved.key lower)).last resolved.orderId).1 = false ∨
          (run.historyOf (resolved.key lower)).counted = ∅) := by
  have agree : (run.dayOf lower resolved).consecutiveLosses = (run.historyOf (resolved.key lower)).counted.card := by
    unfold dayOf
    rw [RiskSnapshot.rollDay_losses]
    exact hold.losses resolved.traderId resolved.mode
  rw [RiskSnapshot.recordStreak_eq]
  exact (memory_of_day faithful).streak_iff agree run.clock resolved.orderId resolved.status resolved.profit resolved.countsAsThesisLoss

theorem mode_realized (hold : run.ProfitsHold lower) {mode : String} (same : modeKey lower resolved.mode = modeKey lower mode) :
    (run.realized lower resolved).state.getDailyRealizedPnl lower none mode run.clock =
      (run.histories.sumEntries fun key history => if key.2 = modeKey lower mode then history.profitOn run.clock else 0) +
        (run.dayOf lower resolved).pnlDelta resolved.orderId resolved.profit := by
  rw [← hold.mode mode run.clock (le_refl run.clock)]
  unfold realized RiskState.realize RiskState.getDailyRealizedPnl Resolution.key
  simp only [same, Dict.get?_set, if_true, Option.getD_some]
  unfold dayOf Resolution.key
  rw [same]

theorem mode_realized_other (day : ℕ) {mode : String} (other : modeKey lower resolved.mode ≠ modeKey lower mode) :
    (run.realized lower resolved).state.getDailyRealizedPnl lower none mode day = run.state.getDailyRealizedPnl lower none mode day := by
  unfold realized RiskState.realize RiskState.getDailyRealizedPnl Resolution.key
  simp only [Dict.get?_set, if_neg other]

theorem mode_realized_later {day : ℕ} (later : run.clock < day) {mode : String} (same : modeKey lower resolved.mode = modeKey lower mode) :
    (run.realized lower resolved).state.getDailyRealizedPnl lower none mode day = 0 := by
  unfold realized RiskState.realize RiskState.getDailyRealizedPnl Resolution.key
  simp only [same, Dict.get?_set, if_true, Option.some.injEq]
  rw [if_neg (Nat.ne_of_lt later)]

theorem profitsHold_realized_iff (hold : run.ProfitsHold lower) (faithful : run.Faithful) :
    (run.realized lower resolved).ProfitsHold lower ↔ run.Recordable lower run.clock resolved := by
  have kept : (run.realized lower resolved).Faithful := faithful_realized faithful
  constructor
  · intro after
    have profit := after.trader resolved.traderId resolved.mode run.clock (le_refl run.clock)
    have losses := after.losses resolved.traderId resolved.mode
    have here : resolved.key lower = (resolved.traderId, modeKey lower resolved.mode) := rfl
    rw [snapshotOf_realized, historyOf_realized, if_pos here, if_pos here] at profit losses
    rw [pnlOn_realized hold, profitOn_realized faithful] at profit
    have named := (delta_iff faithful).1 (add_left_cancel profit)
    have streak := (streak_realized hold faithful).1 losses
    exact ⟨named, streak.1, streak.2⟩
  · intro recordable
    have delta := (@delta_iff lower run resolved faithful).2 recordable.1
    have streak := (streak_realized hold faithful).2 ⟨recordable.2.1, recordable.2.2⟩
    constructor
    · intro traderId mode day passed
      rcases Nat.eq_or_lt_of_le passed with today | later
      · rw [← today, snapshotOf_realized, historyOf_realized]
        by_cases same : resolved.key lower = (traderId, modeKey lower mode)
        · rw [if_pos same, if_pos same]
          show RiskState.pnlOn _ run.clock = OrderHistory.profitOn _ run.clock
          rw [pnlOn_realized hold, profitOn_realized faithful, ← delta]
        · rw [if_neg same, if_neg same]
          exact hold.trader traderId mode run.clock (le_refl run.clock)
      · have memory := kept.memory (traderId, modeKey lower mode)
        rw [memory.pnlOn_later later, memory.profitOn_later later]
    · intro mode day passed
      by_cases same : modeKey lower resolved.mode = modeKey lower mode
      · rcases Nat.eq_or_lt_of_le passed with today | later
        · rw [← today]
          have total := sum_set run (resolved.key lower) ((run.historyOf (resolved.key lower)).resolve run.clock resolved.orderId
            resolved.status resolved.profit resolved.countsAsThesisLoss) run.clock (modeKey lower mode)
          have same_mode : (resolved.key lower).2 = modeKey lower mode := same
          rw [profitOn_realized faithful, ← delta, if_pos same_mode, add_sub_cancel_left] at total
          exact (mode_realized hold same).trans total.symm
        · have none_ := @mode_realized_later lower run resolved day later mode same
          exact none_.trans (sum_later kept later (modeKey lower mode)).symm
      · have total := sum_set run (resolved.key lower) ((run.historyOf (resolved.key lower)).resolve run.clock resolved.orderId
          resolved.status resolved.profit resolved.countsAsThesisLoss) day (modeKey lower mode)
        have other_mode : (resolved.key lower).2 ≠ modeKey lower mode := same
        rw [if_neg other_mode, add_zero] at total
        rw [mode_realized_other day same]
        exact (hold.mode mode day passed).trans total.symm
    · intro traderId mode
      rw [snapshotOf_realized, historyOf_realized]
      by_cases same : resolved.key lower = (traderId, modeKey lower mode)
      · rw [if_pos same, if_pos same]
        exact streak
      · rw [if_neg same, if_neg same]
        exact hold.losses traderId mode

theorem previous_of_record {snap other : RiskSnapshot} (same : other.record = snap.record) (today : ℕ) (orderId : String) :
    (other.rollDay today).previous orderId = (snap.rollDay today).previous orderId := by
  have rolled : (other.rollDay today).record = (snap.rollDay today).record := by
    rw [RiskSnapshot.rollDay_record, RiskSnapshot.rollDay_record, same]
  have statuses : (other.rollDay today).resolvedOrderStatuses = (snap.rollDay today).resolvedOrderStatuses :=
    (congrArg RiskSnapshot.resolvedOrderStatuses rolled :)
  have losses : (other.rollDay today).resolvedOrderThesisLosses = (snap.rollDay today).resolvedOrderThesisLosses :=
    (congrArg RiskSnapshot.resolvedOrderThesisLosses rolled :)
  unfold RiskSnapshot.previous
  rw [statuses, losses]

/-- One call keeps the totals exactly when its resolution, if it has one, is recordable. -/
theorem step_iff (hold : run.ProfitsHold lower) (faithful : run.Faithful) {event : RiskEvent} (passed : run.clock ≤ event.today) :
    (run.step lower event).Faithful ∧ ((run.step lower event).ProfitsHold lower ↔ run.Sound lower event) := by
  obtain ⟨moved, only, views, spec⟩ := RiskState.call_spec lower run.state event.today event.call
  have movedFaithful : Faithful { run with state := moved, clock := event.today } :=
    faithful_moved faithful only (views faithful.views) passed
  have movedHold : ProfitsHold lower { run with state := moved, clock := event.today } := profitsHold_moved lower hold only passed
  unfold Sound
  cases found : event.call.resolution lower event.today with
  | none =>
    have step : run.step lower event = { run with state := moved, clock := event.today } := by
      unfold RiskRun.step
      rw [spec, found]
    rw [step]
    exact ⟨movedFaithful, iff_of_true movedHold fun resolved member => by cases member⟩
  | some resolved =>
    have step : run.step lower event = RiskRun.realized lower { run with state := moved, clock := event.today } resolved := by
      unfold RiskRun.step
      rw [spec, found]
      rfl
    have same : RiskRun.Recordable lower { run with state := moved, clock := event.today } event.today resolved ↔
        run.Recordable lower event.today resolved := by
      unfold RiskRun.Recordable RiskRun.remembered
      simp only
      rw [previous_of_record (only.record _)]
      rfl
    rw [step]
    refine ⟨faithful_realized movedFaithful, (profitsHold_realized_iff movedHold movedFaithful).trans (same.trans ?_)⟩
    constructor
    · intro recordable other member
      rw [← Option.some.inj member]
      exact recordable
    · intro sound
      exact sound resolved rfl

end

end RiskRun

section
variable (lower : String → String)

theorem totalsHold_start : TotalsHold lower {} := by
  rw [RiskRun.totalsHold_iff lower RiskRun.faithful_start]
  constructor
  · intro traderId mode day later
    rfl
  · intro mode day later
    rfl
  · intro traderId mode
    rfl

/-- Over calls whose days do not go back, the totals are those of the history at every point exactly when every resolution
was recordable as it was made. -/
theorem totals_hold_iff (events : List RiskEvent)
    (forward : Runs.Meets (RiskRun.step lower) (fun run event => run.clock ≤ event.today) {} events) :
    Runs.Always (RiskRun.step lower) (TotalsHold lower) {} events ↔ Runs.Meets (RiskRun.step lower) (RiskRun.Sound lower) {} events := by
  have held : RiskRun.Faithful {} ∧ RiskRun.ProfitsHold lower {} :=
    ⟨RiskRun.faithful_start, (RiskRun.totalsHold_iff lower RiskRun.faithful_start).1 (totalsHold_start lower)⟩
  refine @Runs.always_iff_meets_within _ _ (RiskRun.step lower) (fun run event => run.clock ≤ event.today) (RiskRun.Sound lower)
    (fun run => run.Faithful ∧ run.ProfitsHold lower) (TotalsHold lower) ?_ ?_ {} events held (totalsHold_start lower) forward
  · intro run event held passed sound
    have step := RiskRun.step_iff held.2 held.1 passed
    exact ⟨step.1, step.2.2 sound⟩
  · intro run event held passed hold
    have step := RiskRun.step_iff held.2 held.1 passed
    exact (RiskRun.totalsHold_iff lower step.1).trans step.2

end

/-- A loss and, on the next day, a win of another order. -/
theorem totals_hold_loss_then_win : Runs.Always (RiskRun.step id) (TotalsHold id) {}
    [⟨1, .recordOrderResolved "t" "live" "a" "loss" (-3) {} 1⟩, ⟨2, .recordOrderResolved "t" "live" "b" "win" 5 {} 2⟩] :=
  (totals_hold_iff id _ (by decide +kernel)).2 (by decide +kernel)

/-- The same resolution, made again on the next day, is counted again. -/
theorem repeated_loss_counted_twice : ¬∀ events : List RiskEvent,
    Runs.Meets (RiskRun.step id) (fun run event => run.clock ≤ event.today) {} events →
      Runs.Always (RiskRun.step id) (TotalsHold id) {} events := by
  intro always
  have hold := always [⟨1, .recordOrderResolved "t" "live" "a" "loss" (-3) {} 1⟩, ⟨2, .recordOrderResolved "t" "live" "a" "loss" (-3) {} 2⟩]
    (by decide +kernel) _ (List.prefix_refl _)
  have losses := hold.losses "t" "live"
  exact absurd losses (by decide +kernel)

end Callisto.Hot
