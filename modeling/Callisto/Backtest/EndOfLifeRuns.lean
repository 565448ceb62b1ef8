import Callisto.Backtest.EndOfLife
import Callisto.Backtest.FastPath

/-! The end of life of the positions of a run: each is closed once, at its settlement or at its last mark, and not before it was opened. -/

namespace Callisto.Backtest

open Callisto.Library Callisto.Library.Runs Relation

namespace BacktestEngine

variable {σ π ρ : Type} {config : BacktestConfig σ π ρ} {engine next last : BacktestEngine σ ρ} {snapshot : BookSnapshot}
  {past : List BookSnapshot} {opened : List (PositionKey × Option Instant)}

/-! ## What is opened -/

def opens (engine : BacktestEngine σ ρ) (fill : Fill) : List (PositionKey × Option Instant) :=
  match engine.matching.orders.get? fill.orderId with
  | none => []
  | some order => engine.portfolio.opens fill order.strategySlug

def openedBy (config : BacktestConfig σ π ρ) : BacktestEngine σ ρ → List Fill → List (PositionKey × Option Instant)
  | _, [] => []
  | engine, fill :: rest => engine.opens fill ++ openedBy config (applyFill config engine fill) rest

def openedAt (config : BacktestConfig σ π ρ) (engine : BacktestEngine σ ρ) (snapshot : BookSnapshot) : List (PositionKey × Option Instant) :=
  let settled := settleDue config snapshot.observedAt engine
  if settled.involved snapshot then
    match drainIntents config snapshot.observedAt settled.pendingIntents settled with
    | .error _ => []
    | .ok drained =>
      match drained.matching.advanceTo config.matching snapshot with
      | .error _ => []
      | .ok result => openedBy config { drained with matching := result.1 } result.2
  else []

def openings (config : BacktestConfig σ π ρ) : Except MatchingError (BacktestEngine σ ρ) → List BookSnapshot → List (PositionKey × Option Instant)
  | .ok engine, snapshot :: rest => openedAt config engine snapshot ++ openings config (step config true (.ok engine) snapshot) rest
  | _, _ => []

/-! ## The condition -/

/-- A fill that ends a position is not stamped before the position was opened, and one that opens a position is more than dust. -/
def FillTimely (engine : BacktestEngine σ ρ) (fill : Fill) : Prop :=
  ∀ order ∈ engine.matching.orders.get? fill.orderId, engine.portfolio.Timely fill order.strategySlug

def InTime (config : BacktestConfig σ π ρ) (engine : BacktestEngine σ ρ) (snapshot : BookSnapshot) : Prop :=
  (settleDue config snapshot.observedAt engine).involved snapshot = true →
    OnOk (drainIntents config snapshot.observedAt (settleDue config snapshot.observedAt engine).pendingIntents
      (settleDue config snapshot.observedAt engine)) fun drained =>
        OnOk (drained.matching.advanceTo config.matching snapshot) fun result =>
          Meets (applyFill config) FillTimely { drained with matching := result.1 } result.2

def ResolvedBy (config : BacktestConfig σ π ρ) (now : Option Instant) (tokenId : String) (price : ℚ) (due : Instant) : Prop :=
  Settles config tokenId price due ∧ ∃ clock, now = some clock ∧ due ≤ clock

/-- What is open before the final pass was opened by the resolution of its token, or is not marked at zero if its token has not resolved. -/
def ClosesInTime (config : BacktestConfig σ π ρ) (engine : BacktestEngine σ ρ) : Prop :=
  ∀ entry ∈ engine.portfolio.positions.entries,
    (∀ price due, ResolvedBy config engine.matching.now entry.1.1 price due → ∀ opened ∈ entry.2.openedAt, opened ≤ due) ∧
    ((¬ ∃ price due, ResolvedBy config engine.matching.now entry.1.1 price due) → entry.2.lastMarkPrice ≠ some 0)

instance (engine : BacktestEngine σ ρ) (fill : Fill) : Decidable (FillTimely engine fill) := by
  unfold FillTimely
  infer_instance

instance (config : BacktestConfig σ π ρ) (engine : BacktestEngine σ ρ) (snapshot : BookSnapshot) : Decidable (InTime config engine snapshot) := by
  unfold InTime
  infer_instance

/-! ## The invariant -/

/-- What holds of a run between snapshots, with the snapshots so far and the positions opened so far. -/
structure Tracked (config : BacktestConfig σ π ρ) (past : List BookSnapshot) (opened : List (PositionKey × Option Instant))
    (engine : BacktestEngine σ ρ) : Prop where
  onTime : engine.matching.OnTime
  clock : ∀ now, engine.matching.now = some now → ∃ snapshot ∈ past, snapshot.observedAt = now
  held : engine.portfolio.positions.All (Position.Open engine.matching.now)
  ended : ∀ pos ∈ engine.portfolio.closedPositions, pos.Ended
  named : ∀ name, engine.portfolio.named name = opened.count name
  sorted : engine.resolutionSchedule.Pairwise fun first second => first.1 ≤ second.1
  listed : ∀ coming ∈ engine.resolutionSchedule, coming ∈ config.resolutionSchedule
  ahead : ∀ coming ∈ engine.resolutionSchedule, ∀ now, engine.matching.now = some now → now < coming.1
  awaits : ∀ coming ∈ config.resolutionSchedule, (∀ snapshot ∈ past, snapshot.observedAt < coming.1) → coming ∈ engine.resolutionSchedule
  curve : engine.portfolio.equityHistory.Pairwise fun point later => point.1 ≤ later.1
  drawn : ∀ point ∈ engine.portfolio.equityHistory, ∃ now, engine.matching.now = some now ∧ point.1 ≤ now

theorem ended_closedOut {terms : PortfolioConfig} {pos : Position} {now : Option Instant} {key : PositionKey} (held : pos.Open now key) {price : ℚ}
    {moment : Instant} (later : ∀ opened ∈ pos.openedAt, opened ≤ moment) : (Portfolio.closedOut terms pos price moment).Ended := by
  have ⟨opened, _, at_, _⟩ := held.opened
  exact ⟨opened, moment, at_, rfl, later opened at_⟩

/-! ## One snapshot -/

theorem settleDue_sweeps (tracked : Tracked config past opened engine) (now : Instant) :
    Sweeps config engine.resolutionSchedule now engine (settleDue config now engine) :=
  sweeps_settleSchedule tracked.sorted tracked.listed engine

theorem Tracked.settleDue (tracked : Tracked config past opened engine) (snapshot : BookSnapshot) :
    Tracked config (past ++ [snapshot]) opened (settleDue config snapshot.observedAt engine) ∧
      ∀ coming ∈ (BacktestEngine.settleDue config snapshot.observedAt engine).resolutionSchedule, snapshot.observedAt < coming.1 := by
  have sweeps := settleDue_sweeps tracked snapshot.observedAt
  have ⟨_, sublist, later, swept⟩ := settleSchedule_spec snapshot.observedAt tracked.sorted tracked.listed engine
  have shrinks : ∀ coming ∈ (BacktestEngine.settleDue config snapshot.observedAt engine).resolutionSchedule, coming ∈ engine.resolutionSchedule :=
    fun coming member => sublist.subset member
  refine ⟨?_, later⟩
  constructor
  · rw [sweeps.matching]
    exact tracked.onTime
  · intro now known
    rw [sweeps.matching] at known
    have ⟨shown, member, same⟩ := tracked.clock now known
    exact ⟨shown, List.mem_append_left _ member, same⟩
  · intro entry member
    rw [sweeps.matching]
    exact tracked.held entry (sweeps.left entry member)
  · have ⟨more, appended, each⟩ := sweeps.closed
    rw [appended]
    intro pos member
    cases List.mem_append.mp member with
    | inl old => exact tracked.ended pos old
    | inr new =>
      have ⟨entry, entryMember, price, due, coming, same⟩ := each pos new
      have held := tracked.held entry entryMember
      have ⟨since, now, at_, known, below, _⟩ := held.opened
      rw [same]
      refine ended_closedOut held fun other named => ?_
      rw [← Option.some.inj (at_.symm.trans named)]
      exact below.trans (tracked.ahead _ coming now known).le
  · intro name
    rw [sweeps.named, tracked.named]
  · exact tracked.sorted.sublist sublist
  · exact fun coming member => tracked.listed coming (shrinks coming member)
  · intro coming member now known
    rw [sweeps.matching] at known
    exact tracked.ahead coming (shrinks coming member) now known
  · intro coming member waits
    have waiting := tracked.awaits coming member fun shown before => waits shown (List.mem_append_left _ before)
    cases swept coming waiting with
    | inl still => exact still
    | inr gone => exact absurd gone.1 (not_le.mpr (waits snapshot (List.mem_append_right _ (List.mem_singleton_self snapshot))))
  · rw [sweeps.history]
    exact tracked.curve
  · rw [sweeps.history, sweeps.matching]
    exact tracked.drawn

theorem Entered.onTime {allowed : NewOrder → Prop} (entered : Entered config allowed engine next) (onTime : engine.matching.OnTime) :
    next.matching.OnTime ∧ next.matching.now = engine.matching.now := by
  have each : ∀ last, ReflTransGen (MatchingEngine.Entry config.matching allowed) engine.matching last →
      last.OnTime ∧ last.now = engine.matching.now := by
    intro last reached
    induction reached with
    | refl => exact ⟨onTime, rfl⟩
    | tail _ entry ih =>
      have ⟨order, latency, _, done⟩ := entry
      have ⟨kept, now, _⟩ := ih.1.submit done
      exact ⟨kept, now.trans ih.2⟩
  exact each next.matching entered.matching

theorem applyFills_spec (config : BacktestConfig σ π ρ) (engine : BacktestEngine σ ρ) {fills : List Fill} {clock : Instant}
    (held : engine.portfolio.positions.All (Position.Open (some clock)))
    (ended : ∀ pos ∈ engine.portfolio.closedPositions, pos.Ended) (positive : ∀ fill ∈ fills, 0 < fill.size)
    (stamped : ∀ fill ∈ fills, fill.occurredAt ≤ clock) (timely : Meets (applyFill config) FillTimely engine fills) :
    (fills.foldl (applyFill config) engine).portfolio.positions.All (Position.Open (some clock)) ∧
      (∀ pos ∈ (fills.foldl (applyFill config) engine).portfolio.closedPositions, pos.Ended) ∧
      (∀ name, (fills.foldl (applyFill config) engine).portfolio.named name =
        engine.portfolio.named name + (openedBy config engine fills).count name) ∧
      (fills.foldl (applyFill config) engine).portfolio.equityHistory = engine.portfolio.equityHistory ∧
      engine.portfolio.closedPositions <+: (fills.foldl (applyFill config) engine).portfolio.closedPositions := by
  induction fills generalizing engine with
  | nil => exact ⟨held, ended, fun name => (add_zero _).symm, rfl, List.prefix_rfl⟩
  | cons fill rest ih =>
    have one : (applyFill config engine fill).portfolio.positions.All (Position.Open (some clock)) ∧
        (∀ pos ∈ (applyFill config engine fill).portfolio.closedPositions, pos.Ended) ∧
        (∀ name, (applyFill config engine fill).portfolio.named name = engine.portfolio.named name + (engine.opens fill).count name) ∧
        (applyFill config engine fill).portfolio.equityHistory = engine.portfolio.equityHistory ∧
        engine.portfolio.closedPositions <+: (applyFill config engine fill).portfolio.closedPositions := by
      unfold applyFill opens
      cases found : engine.matching.orders.get? fill.orderId with
      | none => exact ⟨held, ended, fun name => (add_zero _).symm, rfl, List.prefix_rfl⟩
      | some order =>
        have here := timely.1 order found
        exact ⟨Portfolio.open_applyFill held (positive fill List.mem_cons_self) here (stamped fill List.mem_cons_self),
          Portfolio.ended_applyFill held ended here, Portfolio.named_applyFill held fill order.strategySlug,
          Portfolio.equityHistory_applyFill _ _ _, Portfolio.closedPositions_applyFill _ _ _⟩
    have ⟨heldNext, endedNext, namedNext, history, longer⟩ := one
    have ⟨heldLast, endedLast, namedLast, historyLast, longerLast⟩ := ih (applyFill config engine fill) heldNext endedNext
      (fun other member => positive other (List.mem_cons_of_mem fill member)) (fun other member => stamped other (List.mem_cons_of_mem fill member))
      timely.2
    refine ⟨heldLast, endedLast, fun name => ?_, historyLast.trans history, longer.trans longerLast⟩
    rw [List.foldl_cons, namedLast, namedNext, openedBy, List.count_append, Nat.cast_add, add_assoc]

theorem advance_stamped {matching next : MatchingEngine} {fills : List Fill} (onTime : matching.OnTime)
    (done : matching.advanceTo config.matching snapshot = .ok (next, fills)) :
    next.OnTime ∧ next.now = some snapshot.observedAt ∧ (∀ now, matching.now = some now → now ≤ snapshot.observedAt) ∧
      (∀ fill ∈ fills, 0 < fill.size) ∧ ∀ fill ∈ fills, fill.occurredAt ≤ snapshot.observedAt := by
  have ⟨kept, now, _, priced⟩ := onTime.advanceTo done
  have ⟨auditedNext, _, _, ledger⟩ := onTime.audited.advanceTo False.elim False.elim done
  refine ⟨kept, now, (MatchingEngine.advanceTo_phases done).1, fun fill member => ?_, fun fill member => ?_⟩
  · have onLedger : fill ∈ next.allFills := by
      rw [ledger]
      exact List.mem_append_right _ member
    have ⟨order, found⟩ := auditedNext.known fill onLedger
    have recorded : fill ∈ order.fills := by
      rw [auditedNext.onRecord _ order found]
      exact List.mem_filter.mpr ⟨onLedger, decide_eq_true rfl⟩
    exact ((auditedNext.accounts _ order found).own fill recorded).positive
  · have ⟨_, _, prices⟩ := (priced fill member).1
    exact prices.between.2

theorem markAt_spec (engine : BacktestEngine σ ρ) (held : engine.portfolio.positions.All (Position.Open (some snapshot.observedAt)))
    (curve : engine.portfolio.equityHistory.Pairwise fun point later => point.1 ≤ later.1)
    (drawn : ∀ point ∈ engine.portfolio.equityHistory, point.1 ≤ snapshot.observedAt) :
    (engine.markAt snapshot).portfolio.positions.All (Position.Open (some snapshot.observedAt)) ∧
      (engine.markAt snapshot).portfolio.closedPositions = engine.portfolio.closedPositions ∧
      (∀ name, (engine.markAt snapshot).portfolio.named name = engine.portfolio.named name) ∧
      ((engine.markAt snapshot).portfolio.equityHistory.Pairwise fun point later => point.1 ≤ later.1) ∧
      ∀ point ∈ (engine.markAt snapshot).portfolio.equityHistory, point.1 ≤ snapshot.observedAt := by
  unfold markAt
  cases snapshot.mid with
  | none => exact ⟨held, rfl, fun _ => rfl, curve, drawn⟩
  | some mid =>
    refine ⟨Portfolio.open_mark held snapshot.tokenId mid, rfl, Portfolio.named_mark _ _ _ _, ?_, ?_⟩
    · refine List.pairwise_append.mpr ⟨curve, List.pairwise_singleton _ _, fun point member last single => ?_⟩
      rw [List.mem_singleton.mp single]
      exact drawn point member
    · intro point member
      cases List.mem_append.mp member with
      | inl old => exact drawn point old
      | inr new =>
        rw [List.mem_singleton.mp new]

theorem Tracked.processSnapshot (tracked : Tracked config past opened engine) (shown : snapshot ∈ past)
    (later : ∀ coming ∈ engine.resolutionSchedule, snapshot.observedAt < coming.1)
    (timely : OnOk (drainIntents config snapshot.observedAt engine.pendingIntents engine) fun drained =>
      OnOk (drained.matching.advanceTo config.matching snapshot) fun result =>
        Meets (applyFill config) FillTimely { drained with matching := result.1 } result.2)
    (done : processSnapshot config engine snapshot = .ok next) :
    Tracked config past (opened ++ match drainIntents config snapshot.observedAt engine.pendingIntents engine with
      | .error _ => []
      | .ok drained =>
        match drained.matching.advanceTo config.matching snapshot with
        | .error _ => []
        | .ok result => openedBy config { drained with matching := result.1 } result.2) next ∧
      engine.portfolio.closedPositions <+: next.portfolio.closedPositions := by
  have ⟨drained, matching, fills, exited, drains, advances, exits, left⟩ := processSnapshot_phases done
  rw [drains] at timely ⊢
  simp only [OnOk] at timely ⊢
  rw [advances] at timely ⊢
  simp only at timely ⊢
  have entered := entered_drainIntents drains
  have ⟨onTimeDrained, nowDrained⟩ := entered.onTime tracked.onTime
  have ⟨onTimeNext, nowNext, forward, positive, stamped⟩ := advance_stamped onTimeDrained advances
  have onward : ∀ clock, engine.matching.now = some clock → ∃ next, some snapshot.observedAt = some next ∧ clock ≤ next :=
    fun clock known => ⟨_, rfl, forward clock (nowDrained.trans known)⟩
  have heldStart : drained.portfolio.positions.All (Position.Open (some snapshot.observedAt)) := by
    rw [entered.portfolio]
    exact fun entry member => (tracked.held entry member).later onward
  have endedStart : ∀ pos ∈ drained.portfolio.closedPositions, pos.Ended := by
    rw [entered.portfolio]
    exact tracked.ended
  have drawnStart : ∀ point ∈ drained.portfolio.equityHistory, point.1 ≤ snapshot.observedAt := by
    rw [entered.portfolio]
    intro point member
    have ⟨now, known, below⟩ := tracked.drawn point member
    exact below.trans (forward now (nowDrained.trans known))
  have ⟨heldFilled, endedFilled, namedFilled, historyFilled, longer⟩ :=
    applyFills_spec config { drained with matching := matching } heldStart endedStart positive stamped timely
  have ⟨matchingFilled, _, scheduleFilled⟩ := applyFills_aside config { drained with matching := matching } fills
  generalize filledIs : fills.foldl (applyFill config) { drained with matching := matching } = filled at *
  have curveFilled : filled.portfolio.equityHistory.Pairwise fun point later => point.1 ≤ later.1 := by
    rw [historyFilled]
    show drained.portfolio.equityHistory.Pairwise _
    rw [entered.portfolio]
    exact tracked.curve
  have drawnFilled : ∀ point ∈ filled.portfolio.equityHistory, point.1 ≤ snapshot.observedAt := by
    rw [historyFilled]
    exact drawnStart
  have ⟨heldMarked, closedMarked, namedMarked, curveMarked, drawnMarked⟩ := markAt_spec filled heldFilled curveFilled drawnFilled
  have ⟨matchingMarked, _, scheduleMarked⟩ := markAt_aside filled snapshot
  have leaves := entered_evaluateExits (fun _ => True) (fun _ _ _ _ => trivial) exits
  have onTimeMarked : (filled.markAt snapshot).matching.OnTime := by
    rw [matchingMarked, matchingFilled]
    exact onTimeNext
  have nowMarked : (filled.markAt snapshot).matching.now = some snapshot.observedAt := by
    rw [matchingMarked, matchingFilled]
    exact nowNext
  have ⟨onTimeExited, nowExited⟩ := leaves.onTime onTimeMarked
  have ⟨told, portfolio, schedule, _⟩ := notifyCancels_spec config exited
  have nowLast : next.matching.now = some snapshot.observedAt := by
    rw [left, told, nowExited, nowMarked]
  have portfolioLast : next.portfolio = (filled.markAt snapshot).portfolio := by
    rw [left, portfolio, leaves.portfolio]
  have scheduleLast : next.resolutionSchedule = engine.resolutionSchedule := by
    rw [left, schedule, leaves.schedule, scheduleMarked, scheduleFilled]
    exact entered.schedule
  refine ⟨⟨?_, ?_, ?_, ?_, ?_, ?_, ?_, ?_, ?_, ?_, ?_⟩, ?_⟩
  · rw [left, told]
    exact onTimeExited
  · intro now known
    exact ⟨snapshot, shown, Option.some.inj (nowLast.symm.trans known)⟩
  · rw [portfolioLast, nowLast]
    exact heldMarked
  · rw [portfolioLast, closedMarked]
    exact endedFilled
  · intro name
    rw [portfolioLast, namedMarked, namedFilled, List.count_append, Nat.cast_add, ← tracked.named name]
    show drained.portfolio.named name + _ = _
    rw [entered.portfolio]
  · rw [scheduleLast]
    exact tracked.sorted
  · rw [scheduleLast]
    exact tracked.listed
  · intro coming member now known
    rw [scheduleLast] at member
    rw [← Option.some.inj (nowLast.symm.trans known)]
    exact later coming member
  · rw [scheduleLast]
    exact tracked.awaits
  · rw [portfolioLast]
    exact curveMarked
  · rw [portfolioLast]
    exact fun point member => ⟨snapshot.observedAt, nowLast, drawnMarked point member⟩
  · rw [portfolioLast, closedMarked, ← entered.portfolio]
    exact longer

theorem Tracked.onSnapshot (tracked : Tracked config past opened engine) (timely : InTime config engine snapshot)
    (done : onSnapshot config true engine snapshot = .ok next) :
    Tracked config (past ++ [snapshot]) (opened ++ openedAt config engine snapshot) next ∧
      (BacktestEngine.settleDue config snapshot.observedAt engine).portfolio.closedPositions <+: next.portfolio.closedPositions := by
  have ⟨settled, later⟩ := tracked.settleDue snapshot
  unfold BacktestEngine.onSnapshot at done
  unfold openedAt
  simp only [Bool.true_and] at done
  cases involved : (BacktestEngine.settleDue config snapshot.observedAt engine).involved snapshot with
  | false =>
    rw [involved] at done
    simp only [Bool.not_false, if_true, Except.ok.injEq] at done
    simp only [involved, Bool.false_eq_true, if_false, List.append_nil]
    rw [← done]
    exact ⟨settled, List.prefix_rfl⟩
  | true =>
    rw [involved] at done
    simp only [Bool.not_true, Bool.false_eq_true, if_false] at done
    simp only [involved, if_true]
    exact settled.processSnapshot (List.mem_append_right _ (List.mem_singleton_self snapshot)) later (timely involved) done

end BacktestEngine

end Callisto.Backtest
