import Callisto.Backtest.Engine
import Mathlib.Logic.Relation

/-! What the phases of a snapshot do to the state of a run: submissions leave the portfolio alone, fills and
settlements leave the matching engine alone, and a sweep of the settlements takes the positions of what has resolved. -/

namespace Callisto.Backtest

open Callisto.Library Relation

def MatchingEngine.Entry (config : MatchingConfig) (allowed : NewOrder → Prop) (engine next : MatchingEngine) : Prop :=
  ∃ order latency, allowed order ∧ engine.submit config order latency = .ok next

namespace BacktestEngine

variable {σ π ρ : Type} {config : BacktestConfig σ π ρ} {engine next last : BacktestEngine σ ρ} {snapshot : BookSnapshot}
  {allowed : NewOrder → Prop}

/-- Orders have come up, and nothing else that the books show has changed. -/
structure Entered (config : BacktestConfig σ π ρ) (allowed : NewOrder → Prop) (engine next : BacktestEngine σ ρ) : Prop where
  matching : ReflTransGen (MatchingEngine.Entry config.matching allowed) engine.matching next.matching
  portfolio : next.portfolio = engine.portfolio
  notified : next.cancelledNotified = engine.cancelledNotified
  schedule : next.resolutionSchedule = engine.resolutionSchedule

theorem Entered.refl (config : BacktestConfig σ π ρ) (engine : BacktestEngine σ ρ) : Entered config allowed engine engine :=
  ⟨.refl, rfl, rfl, rfl⟩

theorem Entered.trans (first : Entered config allowed engine next) (second : Entered config allowed next last) :
    Entered config allowed engine last :=
  ⟨first.matching.trans second.matching, second.portfolio.trans first.portfolio, second.notified.trans first.notified,
    second.schedule.trans first.schedule⟩

theorem Entered.of_aside (entered : Entered config allowed next last) (matching : next.matching = engine.matching)
    (portfolio : next.portfolio = engine.portfolio) (notified : next.cancelledNotified = engine.cancelledNotified)
    (schedule : next.resolutionSchedule = engine.resolutionSchedule) : Entered config allowed engine last :=
  ⟨by rw [← matching]; exact entered.matching, entered.portfolio.trans portfolio, entered.notified.trans notified,
    entered.schedule.trans schedule⟩

theorem submit_spec {order : NewOrder} (done : submit config engine order = .ok next) :
    ∃ latency, engine.matching.submit config.matching order latency = .ok next.matching ∧ next.portfolio = engine.portfolio ∧
      next.cancelledNotified = engine.cancelledNotified ∧ next.resolutionSchedule = engine.resolutionSchedule := by
  unfold submit at done
  simp only at done
  generalize config.sampleSubmit engine.latency order.submittedAt = drawn at done
  cases result : engine.matching.submit config.matching order drawn.2 with
  | error raised =>
    rw [result] at done
    cases done
  | ok matching =>
    rw [result] at done
    cases done
    exact ⟨drawn.2, result, rfl, rfl, rfl⟩

theorem entered_submit {order : NewOrder} (okay : allowed order) (done : submit config engine order = .ok next) :
    Entered config allowed engine next := by
  obtain ⟨latency, result, portfolio, notified, schedule⟩ := submit_spec done
  exact ⟨.single ⟨order, latency, okay, result⟩, portfolio, notified, schedule⟩

theorem entered_submitEntry {intent : TradeIntent} (done : submitEntry config engine intent = .ok next) :
    Entered config (fun _ => True) engine next := by
  unfold submitEntry at done
  split at done
  · cases done
    exact .refl config engine
  · simp only at done
    split_ifs at done
    · exact (entered_submit trivial done).of_aside rfl rfl rfl rfl
    · exact entered_submit trivial done

theorem entered_drainIntents {time : Instant} {intents : List TradeIntent} (done : drainIntents config time intents engine = .ok next) :
    Entered config (fun _ => True) engine next := by
  induction intents generalizing engine with
  | nil =>
    cases done
    exact (Entered.refl config _).of_aside rfl rfl rfl rfl
  | cons intent rest ih =>
    simp only [drainIntents] at done
    split_ifs at done
    · cases result : submitEntry config engine intent with
      | error raised =>
        rw [result] at done
        cases done
      | ok entered =>
        rw [result] at done
        exact (entered_submitEntry result).trans (ih done)
    · cases done
      exact (Entered.refl config _).of_aside rfl rfl rfl rfl

theorem entered_submitSingleExit {position : Position} {side : Side} (closes : ∀ order : NewOrder, order.side = side → allowed order)
    {size price : ℚ} {tif : Tif} {postOnly : Bool}
    (done : submitSingleExit config engine position side size price tif postOnly snapshot = .ok next) :
    Entered config allowed engine next :=
  (entered_submit (closes _ rfl) done).of_aside rfl rfl rfl rfl

theorem entered_submitChildren {position : Position} {side : Side} (closes : ∀ order : NewOrder, order.side = side → allowed order)
    {plans : List ChildPlan} (done : submitChildren config position side snapshot plans engine = .ok next) :
    Entered config allowed engine next := by
  induction plans generalizing engine with
  | nil =>
    cases done
    exact .refl config _
  | cons plan rest ih =>
    simp only [submitChildren] at done
    cases result : submitSingleExit config engine position side plan.size plan.price plan.tif plan.postOnly snapshot with
    | error raised =>
      rw [result] at done
      cases done
    | ok entered =>
      rw [result] at done
      exact (entered_submitSingleExit closes result).trans (ih done)

theorem entered_submitPlanned {position : Position} (closes : ∀ order : NewOrder, order.side = position.side.opposing → allowed order)
    {targetSize closePrice : ℚ} {closeTrigger : String} {policy : Option π}
    (done : submitPlanned config engine position targetSize closePrice closeTrigger policy snapshot = .ok next) :
    Entered config allowed engine next := by
  unfold submitPlanned at done
  cases policy with
  | none => exact entered_submitSingleExit closes done
  | some policy =>
    simp only at done
    split at done
    · exact entered_submitSingleExit closes done
    · exact entered_submitChildren closes done

theorem entered_submitExitFor {position : Position} (closes : ∀ order : NewOrder, order.side = position.side.opposing → allowed order)
    {decision : ExitDecision} {fraction : ℚ}
    (done : submitExitFor config engine position decision fraction snapshot = .ok next) : Entered config allowed engine next := by
  unfold submitExitFor at done
  by_cases spent : position.size * fraction ≤ 0
  · rw [if_pos spent] at done
    cases done
    exact .refl config engine
  · rw [if_neg spent] at done
    exact (entered_submitPlanned closes done).of_aside rfl rfl rfl rfl

theorem entered_evaluateExit {pos : Position} (closes : ∀ order : NewOrder, order.side = pos.side.opposing → allowed order)
    (done : evaluateExit config snapshot engine pos = .ok next) : Entered config allowed engine next := by
  have acted : ∀ {start : BacktestEngine σ ρ} {decision : Option ExitDecision}, act config start pos snapshot decision = .ok next →
      Entered config allowed start next := by
    intro start decision result
    unfold act at result
    cases decision with
    | none =>
      cases result
      exact .refl config _
    | some decision =>
      simp only at result
      split at result
      · cases result
        exact .refl config _
      · split_ifs at result
        · cases result
          exact .refl config _
        · exact entered_submitExitFor closes result
      · exact entered_submitExitFor closes result
  exact (acted done).of_aside rfl rfl rfl rfl

theorem entered_evaluateExits (allowed : NewOrder → Prop) {targets : List Position}
    (closes : ∀ pos ∈ targets, ∀ order : NewOrder, order.side = pos.side.opposing → allowed order)
    (done : evaluateExits config snapshot targets engine = .ok next) : Entered config allowed engine next := by
  induction targets generalizing engine with
  | nil =>
    cases done
    exact .refl config _
  | cons pos rest ih =>
    simp only [evaluateExits] at done
    cases result : evaluateExit config snapshot engine pos with
    | error raised =>
      rw [result] at done
      cases done
    | ok entered =>
      rw [result] at done
      have later : ∀ other ∈ rest, ∀ order : NewOrder, order.side = other.side.opposing → allowed order :=
        fun other member => closes other (List.mem_cons_of_mem _ member)
      exact (entered_evaluateExit (closes pos List.mem_cons_self) result).trans (ih later done)

theorem processSnapshot_phases (done : processSnapshot config engine snapshot = .ok next) :
    ∃ drained matching fills exited, drainIntents config snapshot.observedAt engine.pendingIntents engine = .ok drained ∧
      drained.matching.advanceTo config.matching snapshot = .ok (matching, fills) ∧
        evaluateExits config snapshot
          (((fills.foldl (applyFill config) { drained with matching := matching }).markAt snapshot).exitTargets snapshot)
          ((fills.foldl (applyFill config) { drained with matching := matching }).markAt snapshot) = .ok exited ∧
            next = notifyCancels config exited := by
  unfold processSnapshot at done
  cases drains : drainIntents config snapshot.observedAt engine.pendingIntents engine with
  | error raised =>
    rw [drains] at done
    cases done
  | ok drained =>
    rw [drains] at done
    simp only at done
    cases advances : drained.matching.advanceTo config.matching snapshot with
    | error raised =>
      rw [advances] at done
      cases done
    | ok result =>
      obtain ⟨matching, fills⟩ := result
      rw [advances] at done
      simp only at done
      cases exits : evaluateExits config snapshot
          (((fills.foldl (applyFill config) { drained with matching := matching }).markAt snapshot).exitTargets snapshot)
          ((fills.foldl (applyFill config) { drained with matching := matching }).markAt snapshot) with
      | error raised =>
        rw [exits] at done
        cases done
      | ok exited =>
        rw [exits] at done
        cases done
        exact ⟨drained, matching, fills, exited, rfl, advances, exits, rfl⟩

theorem applyFills_aside (config : BacktestConfig σ π ρ) (engine : BacktestEngine σ ρ) (fills : List Fill) :
    (fills.foldl (applyFill config) engine).matching = engine.matching ∧
      (fills.foldl (applyFill config) engine).cancelledNotified = engine.cancelledNotified ∧
        (fills.foldl (applyFill config) engine).resolutionSchedule = engine.resolutionSchedule := by
  induction fills generalizing engine with
  | nil => exact ⟨rfl, rfl, rfl⟩
  | cons fill rest ih =>
    obtain ⟨matching, notified, schedule⟩ := ih (applyFill config engine fill)
    have aside : (applyFill config engine fill).matching = engine.matching ∧
        (applyFill config engine fill).cancelledNotified = engine.cancelledNotified ∧
          (applyFill config engine fill).resolutionSchedule = engine.resolutionSchedule := by
      unfold applyFill
      split
      · exact ⟨rfl, rfl, rfl⟩
      · exact ⟨rfl, rfl, rfl⟩
    exact ⟨matching.trans aside.1, notified.trans aside.2.1, schedule.trans aside.2.2⟩

theorem markAt_aside (engine : BacktestEngine σ ρ) (snapshot : BookSnapshot) :
    (engine.markAt snapshot).matching = engine.matching ∧ (engine.markAt snapshot).cancelledNotified = engine.cancelledNotified ∧
      (engine.markAt snapshot).resolutionSchedule = engine.resolutionSchedule := by
  unfold markAt
  split
  · exact ⟨rfl, rfl, rfl⟩
  · exact ⟨rfl, rfl, rfl⟩

theorem notifyCancels_spec (config : BacktestConfig σ π ρ) (engine : BacktestEngine σ ρ) :
    (notifyCancels config engine).matching = engine.matching ∧ (notifyCancels config engine).portfolio = engine.portfolio ∧
      (notifyCancels config engine).resolutionSchedule = engine.resolutionSchedule ∧
        ∀ id order, engine.matching.orders.get? id = some order → order.state = .cancelled →
          order.orderId ∈ (notifyCancels config engine).cancelledNotified := by
  have each : ∀ (orders : List BacktestOrder) (start : BacktestEngine σ ρ),
      (orders.foldl (notifyCancel config) start).matching = start.matching ∧
        (orders.foldl (notifyCancel config) start).portfolio = start.portfolio ∧
          (orders.foldl (notifyCancel config) start).resolutionSchedule = start.resolutionSchedule ∧
            ∀ orderId, (orderId ∈ start.cancelledNotified ∨ ∃ order ∈ orders, order.state = .cancelled ∧ order.orderId = orderId) →
              orderId ∈ (orders.foldl (notifyCancel config) start).cancelledNotified := by
    intro orders
    induction orders with
    | nil =>
      intro start
      refine ⟨rfl, rfl, rfl, fun orderId heard => ?_⟩
      exact heard.resolve_right fun ⟨_, member, _⟩ => absurd member List.not_mem_nil
    | cons order rest ih =>
      intro start
      have told : (notifyCancel config start order).matching = start.matching ∧
          (notifyCancel config start order).portfolio = start.portfolio ∧
            (notifyCancel config start order).resolutionSchedule = start.resolutionSchedule ∧
              (∀ orderId ∈ start.cancelledNotified, orderId ∈ (notifyCancel config start order).cancelledNotified) ∧
                (order.state = .cancelled → order.orderId ∈ (notifyCancel config start order).cancelledNotified) := by
        unfold notifyCancel
        by_cases heard : order.state ≠ .cancelled ∨ order.orderId ∈ start.cancelledNotified
        · rw [if_pos heard]
          refine ⟨rfl, rfl, rfl, fun _ member => member, fun cancelled => ?_⟩
          exact heard.resolve_left fun other => other cancelled
        · rw [if_neg heard]
          refine ⟨rfl, rfl, rfl, fun _ member => List.mem_append_left _ member, fun _ => ?_⟩
          exact List.mem_append_right _ (List.mem_singleton.2 rfl)
      obtain ⟨matching, portfolio, schedule, hears⟩ := ih (notifyCancel config start order)
      obtain ⟨sameMatching, samePortfolio, sameSchedule, kept, heard⟩ := told
      refine ⟨matching.trans sameMatching, portfolio.trans samePortfolio, schedule.trans sameSchedule, fun orderId known => ?_⟩
      apply hears
      rcases known with old | ⟨other, member, cancelled, named⟩
      · exact Or.inl (kept orderId old)
      · rcases List.mem_cons.1 member with rfl | later
        · exact Or.inl (by rw [← named]; exact heard cancelled)
        · exact Or.inr ⟨other, later, cancelled, named⟩
  obtain ⟨matching, portfolio, schedule, hears⟩ := each engine.matching.orders.values engine
  refine ⟨matching, portfolio, schedule, fun id order found cancelled => hears _ (Or.inr ⟨order, ?_, cancelled, rfl⟩)⟩
  exact Dict.mem_values_of_get? found

/-- A sweep has taken positions away, and left all else but the schedule. -/
structure Fewer (engine next : BacktestEngine σ ρ) : Prop where
  matching : next.matching = engine.matching
  notified : next.cancelledNotified = engine.cancelledNotified
  pending : next.pendingIntents = engine.pendingIntents
  held : ∀ entry ∈ next.portfolio.positions.entries, entry ∈ engine.portfolio.positions.entries

theorem Fewer.refl (engine : BacktestEngine σ ρ) : Fewer engine engine := ⟨rfl, rfl, rfl, fun _ member => member⟩

theorem Fewer.trans (first : Fewer engine next) (second : Fewer next last) : Fewer engine last :=
  ⟨second.matching.trans first.matching, second.notified.trans first.notified, second.pending.trans first.pending,
    fun entry member => first.held entry (second.held entry member)⟩

def Cleared (tokenId : String) (engine : BacktestEngine σ ρ) : Prop :=
  ∀ entry ∈ engine.portfolio.positions.entries, entry.1.1 = tokenId → entry.2.size ≤ dust

theorem Cleared.fewer {tokenId : String} (cleared : Cleared tokenId engine) (fewer : Fewer engine next) : Cleared tokenId next :=
  fun entry member => cleared entry (fewer.held entry member)

theorem settlePositions_spec (tokenId : String) (price : ℚ) (moment : Instant) (entries : List (PositionKey × Position))
    (engine : BacktestEngine σ ρ) :
    Fewer engine (entries.foldl (settlePosition tokenId price moment) engine) ∧
      ∀ held ∈ (entries.foldl (settlePosition tokenId price moment) engine).portfolio.positions.entries,
        ∀ entry ∈ entries, entry.1.1 = tokenId → dust < entry.2.size → held.1 ≠ entry.1 := by
  induction entries generalizing engine with
  | nil => exact ⟨.refl engine, fun _ _ _ member => absurd member List.not_mem_nil⟩
  | cons entry rest ih =>
    have one : Fewer engine (settlePosition tokenId price moment engine entry) ∧
        ∀ held ∈ (settlePosition tokenId price moment engine entry).portfolio.positions.entries,
          entry.1.1 = tokenId → dust < entry.2.size → held.1 ≠ entry.1 := by
      unfold settlePosition
      by_cases passed : entry.1.1 ≠ tokenId ∨ entry.2.size ≤ dust
      · rw [if_pos passed]
        refine ⟨.refl engine, fun _ _ own large => ?_⟩
        exact absurd passed (not_or.2 ⟨not_not.2 own, not_le.2 large⟩)
      · rw [if_neg passed]
        exact ⟨⟨rfl, rfl, rfl, fun held member => (Dict.mem_erase member).1⟩, fun held member _ _ => (Dict.mem_erase member).2⟩
    obtain ⟨fewer, cleared⟩ := ih (settlePosition tokenId price moment engine entry)
    refine ⟨one.1.trans fewer, fun held member other listed own large => ?_⟩
    rcases List.mem_cons.1 listed with rfl | later
    · exact one.2 held (fewer.held held member) own large
    · exact cleared held member other later own large

theorem settleToken_fewer (config : BacktestConfig σ π ρ) (now : Instant) (tokenId : String) :
    Fewer engine (settleToken config now engine tokenId) := by
  unfold settleToken
  cases config.settlements.get? tokenId with
  | none => exact .refl engine
  | some settlement =>
    simp only
    cases settlement.settlePrice with
    | none => exact .refl engine
    | some price => exact (settlePositions_spec tokenId price _ _ engine).1

theorem settleToken_cleared {settlement : TokenSettlement} {price : ℚ} {tokenId : String} (now : Instant)
    (known : config.settlements.get? tokenId = some settlement) (priced : settlement.settlePrice = some price) :
    Cleared tokenId (settleToken config now engine tokenId) := by
  intro held member own
  unfold settleToken at member
  simp only [known, priced] at member
  obtain ⟨fewer, cleared⟩ := settlePositions_spec tokenId price (settlement.resolutionTime.getD now)
    engine.portfolio.positions.entries engine
  by_contra large
  exact cleared held member held (fewer.held held member) own (not_le.1 large) rfl

theorem mem_resolutionSchedule {entry : Instant × String} : entry ∈ config.resolutionSchedule ↔
    ∃ settlement price, config.settlements.get? entry.2 = some settlement ∧ settlement.resolutionTime = some entry.1 ∧
      settlement.settlePrice = some price := by
  unfold BacktestConfig.resolutionSchedule
  rw [List.mem_insertionSort, List.mem_filterMap]
  constructor
  · rintro ⟨⟨tokenId, settlement⟩, member, chosen⟩
    simp only at chosen
    split at chosen
    · rename_i due price timed priced
      cases chosen
      exact ⟨settlement, price, Dict.get?_of_mem member, timed, priced⟩
    · cases chosen
  · rintro ⟨settlement, price, known, timed, priced⟩
    refine ⟨(entry.2, settlement), Dict.mem_of_find known, ?_⟩
    simp only [timed, priced]

theorem settleSchedule_spec {schedule : List (Instant × String)} (now : Instant)
    (sorted : schedule.Pairwise fun first second => first.1 ≤ second.1)
    (listed : ∀ entry ∈ schedule, entry ∈ config.resolutionSchedule) (engine : BacktestEngine σ ρ) :
    Fewer engine (settleSchedule config now schedule engine) ∧
      (settleSchedule config now schedule engine).resolutionSchedule.Sublist schedule ∧
        (∀ entry ∈ (settleSchedule config now schedule engine).resolutionSchedule, now < entry.1) ∧
          ∀ entry ∈ schedule, entry ∈ (settleSchedule config now schedule engine).resolutionSchedule ∨
            entry.1 ≤ now ∧ Cleared entry.2 (settleSchedule config now schedule engine) := by
  induction schedule generalizing engine with
  | nil =>
    refine ⟨⟨rfl, rfl, rfl, fun _ member => member⟩, .refl _, fun _ member => absurd member List.not_mem_nil,
      fun _ member => absurd member List.not_mem_nil⟩
  | cons head rest ih =>
    obtain ⟨due, tokenId⟩ := head
    rw [List.pairwise_cons] at sorted
    simp only [settleSchedule]
    by_cases ready : due ≤ now
    · rw [if_pos ready]
      obtain ⟨fewer, sublist, ahead, swept⟩ := ih sorted.2 (fun entry member => listed entry (List.mem_cons_of_mem _ member))
        (settleToken config now engine tokenId)
      refine ⟨(settleToken_fewer config now tokenId).trans fewer, sublist.cons _, ahead, fun entry member => ?_⟩
      rcases List.mem_cons.1 member with rfl | later
      · obtain ⟨settlement, price, known, -, priced⟩ := mem_resolutionSchedule.1 (listed _ member)
        have cleared : Cleared tokenId (settleToken config now engine tokenId) := settleToken_cleared now known priced
        exact Or.inr ⟨ready, cleared.fewer fewer⟩
      · exact swept entry later
    · rw [if_neg ready]
      refine ⟨⟨rfl, rfl, rfl, fun _ member => member⟩, .refl _, fun entry member => ?_, fun entry member => Or.inl member⟩
      rcases List.mem_cons.1 member with rfl | later
      · exact not_le.1 ready
      · exact (not_le.1 ready).trans_le (sorted.1 entry later)

end BacktestEngine

end Callisto.Backtest
