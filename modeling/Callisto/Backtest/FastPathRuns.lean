import Callisto.Backtest.FastPath
import Callisto.Backtest.EngineSteps

/-! The run with the fast path and the run without it, snapshot by snapshot and to the end: the same fills, orders,
cash and positions, and the same drawdown when no mark that was left out would have told another one. -/

namespace Callisto.Backtest

open Callisto.Library Callisto.Library.Runs

namespace Portfolio

variable {book : Portfolio}

/-- Every position stands under its token, and was opened at some time. -/
def Keyed (book : Portfolio) : Prop := book.positions.All fun key pos => pos.tokenId = key.1 ∧ pos.openedAt.isSome = true

theorem Keyed.applyFill (keyed : book.Keyed) (fill : Fill) (slug : Option String) : (book.applyFill fill slug).Keyed := by
  unfold Portfolio.applyFill
  simp only
  cases found : book.positions.get? (fill.tokenId, fill.side.opposing, slug) with
  | none =>
    apply Dict.All.set keyed
    cases held : book.positions.get? (fill.tokenId, fill.side, slug) with
    | none => exact ⟨rfl, rfl⟩
    | some pos =>
      obtain ⟨own, opened⟩ := Dict.All.of_get? keyed held
      obtain ⟨moment, at_⟩ := Option.isSome_iff_exists.1 opened
      refine ⟨own, ?_⟩
      show (pos.openedAt.or (some fill.occurredAt)).isSome = true
      rw [at_]
      rfl
  | some pos =>
    obtain ⟨own, opened⟩ := Dict.All.of_get? keyed found
    have reduced : (pos.applyCloseFill fill).tokenId = pos.tokenId ∧ (pos.applyCloseFill fill).openedAt = pos.openedAt := by
      unfold Position.applyCloseFill
      split_ifs <;> exact ⟨rfl, rfl⟩
    simp only [applyClosing]
    split_ifs
    · exact Dict.All.erase keyed _
    · apply Dict.All.set keyed
      exact ⟨reduced.1.trans own, by rw [← opened, ← reduced.2]⟩

theorem Keyed.mark (keyed : book.Keyed) (tokenId : String) (price : ℚ) (moment : Instant) : (book.mark tokenId price moment).Keyed := by
  apply Dict.All.mapValues keyed
  intro key pos held
  split_ifs
  · exact held
  · exact held

end Portfolio

namespace BacktestEngine

variable {σ π ρ : Type} {config : BacktestConfig σ π ρ} {fast full engine next : BacktestEngine σ ρ} {seen : Prop}
  {past now time : Option Instant} {snapshot : BookSnapshot}

theorem keyed_applyFills (keyed : engine.portfolio.Keyed) (config : BacktestConfig σ π ρ) (fills : List Fill) :
    (fills.foldl (applyFill config) engine).portfolio.Keyed := by
  induction fills generalizing engine with
  | nil => exact keyed
  | cons fill rest ih =>
    apply ih
    unfold applyFill
    split
    · exact keyed
    · exact keyed.applyFill fill _

theorem keyed_markAt (keyed : engine.portfolio.Keyed) (snapshot : BookSnapshot) : (engine.markAt snapshot).portfolio.Keyed := by
  unfold markAt
  split
  · exact keyed
  · exact keyed.mark _ _ _

def Heard (engine : BacktestEngine σ ρ) : Prop :=
  ∀ id order, engine.matching.orders.get? id = some order → order.state = .cancelled → order.orderId ∈ engine.cancelledNotified

/-- The settlements are swept up to a time. What is not ahead any more has come after its token's settlement, or
has left no position in it. -/
structure Swept (config : BacktestConfig σ π ρ) (time : Option Instant) (engine : BacktestEngine σ ρ) : Prop where
  sorted : engine.resolutionSchedule.Pairwise fun first second => first.1 ≤ second.1
  listed : ∀ entry ∈ engine.resolutionSchedule, entry ∈ config.resolutionSchedule
  ahead : ∀ entry ∈ engine.resolutionSchedule, ∀ now ∈ time, now < entry.1
  behind : ∀ entry ∈ config.resolutionSchedule, entry ∈ engine.resolutionSchedule ∨
    (∃ now ∈ time, entry.1 ≤ now) ∧ ((∃ now ∈ engine.matching.now, entry.1 ≤ now) ∨ Cleared entry.2 engine)

theorem swept_new (config : BacktestConfig σ π ρ) (strategy : σ) (latency : ρ) (intents : List TradeIntent) :
    Swept config none (new config strategy latency intents) := by
  refine ⟨?_, fun _ member => member, fun _ _ _ missing => (by cases missing), fun _ member => Or.inl member⟩
  have total : Std.Total fun first second : Instant × String => first.1 ≤ second.1 := ⟨fun first second => le_total first.1 second.1⟩
  have trans : IsTrans (Instant × String) fun first second => first.1 ≤ second.1 := ⟨fun _ _ _ before after => before.trans after⟩
  exact List.pairwise_insertionSort _ _

theorem Swept.settleDue (swept : Swept config time engine) {moment : Instant} (later : ∀ now ∈ time, now ≤ moment) :
    Swept config (some moment) (settleDue config moment engine) ∧ Fewer engine (settleDue config moment engine) := by
  obtain ⟨fewer, sublist, ahead, redeemed⟩ := settleSchedule_spec moment swept.sorted swept.listed engine
  refine ⟨⟨swept.sorted.sublist sublist, fun entry member => swept.listed entry (sublist.subset member), ?_, fun entry listed => ?_⟩,
    fewer⟩
  · intro entry member now known
    cases known
    exact ahead entry member
  · rcases swept.behind entry listed with waiting | ⟨⟨now, known, due⟩, gone⟩
    · rcases redeemed entry waiting with still | ⟨due, cleared⟩
      · exact Or.inl still
      · exact Or.inr ⟨⟨moment, rfl, due⟩, Or.inr cleared⟩
    · refine Or.inr ⟨⟨moment, rfl, due.trans (later now known)⟩, ?_⟩
      rcases gone with matched | cleared
      · obtain ⟨reached, clock, before⟩ := matched
        exact Or.inl ⟨reached, by rw [BacktestEngine.settleDue, fewer.matching]; exact clock, before⟩
      · exact Or.inr (cleared.fewer fewer)

theorem Swept.matched {moment : Instant} (swept : Swept config (some moment) engine)
    (schedule : next.resolutionSchedule = engine.resolutionSchedule) (clock : next.matching.now = some moment) :
    Swept config (some moment) next := by
  refine ⟨by rw [schedule]; exact swept.sorted, by rw [schedule]; exact swept.listed, by rw [schedule]; exact swept.ahead,
    fun entry listed => ?_⟩
  rw [schedule]
  rcases swept.behind entry listed with waiting | ⟨⟨reached, known, due⟩, -⟩
  · exact Or.inl waiting
  · cases known
    exact Or.inr ⟨⟨moment, rfl, due⟩, Or.inl ⟨moment, clock, due⟩⟩

theorem Shadows.processSnapshot (shadows : Shadows seen past now fast full) (config : BacktestConfig σ π ρ)
    (later : ∀ time, now = some time → time ≤ snapshot.observedAt) :
    Agree (Shadows seen (some snapshot.observedAt) (some snapshot.observedAt)) (processSnapshot config fast snapshot)
      (processSnapshot config full snapshot) := by
  have pending : full.pendingIntents = fast.pendingIntents := by
    obtain ⟨portfolio, matching, rfl, -⟩ := shadows
    rfl
  have drains := shadows.drainIntents config snapshot.observedAt fast.pendingIntents
  unfold BacktestEngine.processSnapshot
  rw [pending]
  generalize BacktestEngine.drainIntents config snapshot.observedAt fast.pendingIntents fast = first at drains ⊢
  generalize BacktestEngine.drainIntents config snapshot.observedAt fast.pendingIntents full = second at drains ⊢
  cases drains with
  | raised error => exact .raised error
  | @returned drained drainedFull drains =>
    obtain ⟨portfolio, matching, rfl, books, engines, -, clock⟩ := drains
    obtain ⟨nextFast, nextFull, fills, advanced, advancedFull, matched, at_, atFull⟩ :=
      engines.advanceTo config.matching (by rw [clock]; exact later)
    simp only [advanced, advancedFull]
    have start : Shadows seen (some snapshot.observedAt) (some snapshot.observedAt) { drained with matching := nextFast }
        { drained with portfolio := portfolio, matching := nextFull } := ⟨portfolio, nextFull, rfl, books, matched, at_, atFull⟩
    have marked := (start.applyFills config fills).markAt snapshot
    have targets : ∀ first second : BacktestEngine σ ρ, Shadows seen (some snapshot.observedAt) (some snapshot.observedAt) first second →
        second.exitTargets snapshot = first.exitTargets snapshot := by
      intro first second related
      obtain ⟨other, matching, rfl, same, -⟩ := related
      rw [exitTargets, exitTargets, same.positions]
    have exits := marked.evaluateExits config snapshot
      (((fills.foldl (BacktestEngine.applyFill config) { drained with matching := nextFast }).markAt snapshot).exitTargets snapshot)
    rw [targets _ _ marked]
    generalize BacktestEngine.evaluateExits config snapshot _ _ = exitedFast at exits ⊢
    generalize BacktestEngine.evaluateExits config snapshot _ _ = exitedFull at exits ⊢
    cases exits with
    | raised error => exact .raised error
    | returned exits => exact .returned (exits.notifyCancels config)

theorem drainIntents_waiting (config : BacktestConfig σ π ρ) {moment : Instant}
    (waiting : (engine.pendingIntents.head?.any fun intent => intent.emittedAt ≤ moment) = false) :
    drainIntents config moment engine.pendingIntents engine = .ok engine := by
  obtain ⟨portfolio, matching, strategy, latency, idsMade, notified, pending, schedule, settled, marked⟩ := engine
  cases pending with
  | nil => rfl
  | cons intent rest =>
    have early : ¬ intent.emittedAt ≤ moment := by simpa using waiting
    simp only [drainIntents]
    rw [if_neg early]

theorem notifyCancels_heard (config : BacktestConfig σ π ρ) (heard : Heard engine) : notifyCancels config engine = engine := by
  have each : ∀ orders : List BacktestOrder, (∀ order ∈ orders, order.state = .cancelled → order.orderId ∈ engine.cancelledNotified) →
      orders.foldl (notifyCancel config) engine = engine := by
    intro orders known
    induction orders with
    | nil => rfl
    | cons order rest ih =>
      have still : notifyCancel config engine order = engine := by
        unfold notifyCancel
        apply if_pos
        by_cases cancelled : order.state = .cancelled
        · exact Or.inr (known order List.mem_cons_self cancelled)
        · exact Or.inl cancelled
      rw [List.foldl_cons, still]
      exact ih fun other member => known other (List.mem_cons_of_mem _ member)
  apply each
  intro order member cancelled
  obtain ⟨⟨id, other⟩, held, rfl⟩ := List.mem_map.1 member
  exact heard id other (Dict.get?_of_mem held) cancelled

theorem Shadows.passOver (shadows : Shadows seen past now fast full) (config : BacktestConfig σ π ρ)
    (later : ∀ time, now = some time → time ≤ snapshot.observedAt) (heard : Heard fast) (uninvolved : fast.involved snapshot = false)
    (covered : seen → snapshot.mid.isSome = true →
      (Drawdown.ofHistory fast.portfolio.equityHistory).Covers fast.portfolio.equityUsd) :
    ∃ nextFull, BacktestEngine.processSnapshot config full snapshot = .ok nextFull ∧ Shadows seen past (some snapshot.observedAt) fast nextFull := by
  unfold involved at uninvolved
  rw [Bool.or_eq_false_iff, Bool.or_eq_false_iff] at uninvolved
  obtain ⟨⟨waiting, inactive⟩, unheld⟩ := uninvolved
  have absent : ∀ entry ∈ fast.portfolio.positions.entries, entry.1.1 ≠ snapshot.tokenId := by
    intro entry member own
    rw [List.any_eq_false] at unheld
    exact unheld entry member (decide_eq_true own)
  obtain ⟨portfolio, matching, rfl, books, engines, clock, clockFull⟩ := shadows
  obtain ⟨nextFull, advanced, matched, at_⟩ :=
    engines.idle config.matching (by rw [clockFull]; exact later) (by rw [inactive]; exact Bool.false_ne_true)
  have drained := @drainIntents_waiting _ _ _ { fast with portfolio := portfolio, matching := matching } config _ waiting
  have marked : ∃ other, ({ fast with portfolio := portfolio, matching := nextFull } : BacktestEngine σ ρ).markAt snapshot =
      { fast with portfolio := other, matching := nextFull } ∧ fast.portfolio.Shadows seen other := by
    unfold BacktestEngine.markAt
    cases shown : snapshot.mid with
    | none => exact ⟨portfolio, rfl, books⟩
    | some mid =>
      refine ⟨_, rfl, books.markFull mid snapshot.observedAt absent fun whole => covered whole ?_⟩
      rw [shown]
      rfl
  obtain ⟨other, told, same⟩ := marked
  have targets : ({ fast with portfolio := other, matching := nextFull } : BacktestEngine σ ρ).exitTargets snapshot = [] := by
    unfold exitTargets
    rw [List.map_eq_nil_iff, List.filter_eq_nil_iff]
    intro entry member chosen
    rw [same.positions] at member
    exact absent entry member (of_decide_eq_true chosen).1
  have orders : nextFull.orders = fast.matching.orders := by
    obtain ⟨shown, time, rfl⟩ := matched.rebooked
    rfl
  refine ⟨{ fast with portfolio := other, matching := nextFull }, ?_, other, nextFull, rfl, same, matched, clock, at_⟩
  unfold BacktestEngine.processSnapshot
  simp only [drained, advanced, List.foldl_nil, told, targets, BacktestEngine.evaluateExits]
  rw [notifyCancels_heard]
  intro id order found
  rw [show _ = fast.matching.orders from orders] at found
  exact heard id order found

theorem processSnapshot_keeps (keyed : engine.portfolio.Keyed) (done : processSnapshot config engine snapshot = .ok next) :
    next.portfolio.Keyed ∧ Heard next ∧ next.resolutionSchedule = engine.resolutionSchedule := by
  obtain ⟨drained, matching, fills, exited, drains, -, exits, rfl⟩ := processSnapshot_phases done
  have entered := entered_drainIntents drains
  have exitedFrom := entered_evaluateExits (fun _ => True) (fun _ _ _ _ => trivial) exits
  obtain ⟨-, -, filledSchedule⟩ := applyFills_aside config { drained with matching := matching } fills
  obtain ⟨-, -, markedSchedule⟩ := markAt_aside (fills.foldl (applyFill config) { drained with matching := matching }) snapshot
  obtain ⟨told, portfolio, schedule, heard⟩ := notifyCancels_spec config exited
  have keyedDrained : ({ drained with matching := matching } : BacktestEngine σ ρ).portfolio.Keyed := by
    show drained.portfolio.Keyed
    rw [entered.portfolio]
    exact keyed
  refine ⟨?_, fun id order found => heard id order (by rw [← told]; exact found), ?_⟩
  · rw [portfolio, exitedFrom.portfolio]
    exact keyed_markAt (keyed_applyFills keyedDrained config fills) snapshot
  · rw [schedule, exitedFrom.schedule, markedSchedule, filledSchedule]
    exact entered.schedule

structure Lockstep (config : BacktestConfig σ π ρ) (seen : Prop) (time : Option Instant) (fast full : BacktestEngine σ ρ) : Prop where
  shadows : Shadows seen fast.matching.now time fast full
  keyed : fast.portfolio.Keyed
  heard : Heard fast
  swept : Swept config time fast

/-- If the snapshot is passed over, the mark that is left out shows neither a new peak nor a deeper fall. -/
def Unremarkable (config : BacktestConfig σ π ρ) (engine : BacktestEngine σ ρ) (snapshot : BookSnapshot) : Prop :=
  (settleDue config snapshot.observedAt engine).involved snapshot = false → snapshot.mid.isSome = true →
    (Drawdown.ofHistory (settleDue config snapshot.observedAt engine).portfolio.equityHistory).Covers
      (settleDue config snapshot.observedAt engine).portfolio.equityUsd

theorem Lockstep.onSnapshot (lockstep : Lockstep config seen time fast full) (later : ∀ now ∈ time, now ≤ snapshot.observedAt)
    (unremarkable : seen → Unremarkable config fast snapshot) :
    Agree (Lockstep config seen (some snapshot.observedAt)) (onSnapshot config true fast snapshot)
      (onSnapshot config false full snapshot) := by
  obtain ⟨swept, fewer⟩ := lockstep.swept.settleDue later
  have settled := lockstep.shadows.settleDue config snapshot.observedAt
  have keyed : (BacktestEngine.settleDue config snapshot.observedAt fast).portfolio.Keyed := fun entry member =>
    lockstep.keyed entry (fewer.held entry member)
  have heard : Heard (BacktestEngine.settleDue config snapshot.observedAt fast) := by
    intro id order found
    rw [fewer.matching] at found
    rw [fewer.notified]
    exact lockstep.heard id order found
  unfold BacktestEngine.onSnapshot
  simp only [Bool.true_and, Bool.false_and, Bool.false_eq_true, if_false]
  cases waits : (BacktestEngine.settleDue config snapshot.observedAt fast).involved snapshot with
  | false =>
    obtain ⟨nextFull, done, passed⟩ := settled.passOver config later heard waits fun whole => unremarkable whole waits
    rw [if_pos (show (!false) = true from rfl), done]
    refine .returned ⟨?_, keyed, heard, swept⟩
    rw [fewer.matching]
    exact passed
  | true =>
    rw [if_neg (by decide)]
    have both := settled.processSnapshot config later
    cases done : processSnapshot config (BacktestEngine.settleDue config snapshot.observedAt fast) snapshot with
    | error raised =>
      rw [done] at both
      generalize processSnapshot config (BacktestEngine.settleDue config snapshot.observedAt full) snapshot = other at both ⊢
      cases both
      exact .raised raised
    | ok next =>
      rw [done] at both
      generalize processSnapshot config (BacktestEngine.settleDue config snapshot.observedAt full) snapshot = other at both ⊢
      cases both with
      | returned results =>
        have clock : next.matching.now = some snapshot.observedAt := by
          obtain ⟨portfolio, matching, -, -, -, at_, -⟩ := results
          exact at_
        obtain ⟨keyedNext, heardNext, schedule⟩ := processSnapshot_keeps keyed done
        refine .returned ⟨?_, keyedNext, heardNext, swept.matched schedule clock⟩
        rw [clock]
        exact results

theorem Shadows.closeAtEnd (shadows : Shadows seen past now fast full) (config : BacktestConfig σ π ρ)
    {ended endedFull : Option Instant} {entry : PositionKey × Position} (opened : entry.2.openedAt.isSome = true)
    (alike : dust < entry.2.size → ∀ settlement price due, config.settlements.get? entry.2.tokenId = some settlement →
      settlement.settlePrice = some price → settlement.resolutionTime = some due →
        (endedFull.any fun ended => due ≤ ended) = ended.any fun ended => due ≤ ended) :
    Shadows seen past now (closeAtEnd config ended fast entry) (closeAtEnd config endedFull full entry) := by
  obtain ⟨key, pos⟩ := entry
  obtain ⟨portfolio, matching, rfl, books, others⟩ := shadows
  unfold BacktestEngine.closeAtEnd
  by_cases spent : pos.size ≤ dust
  · simp only [if_pos spent]
    exact ⟨portfolio, matching, rfl, books, others⟩
  · simp only [if_neg spent]
    have resolved : ((config.settlements.get? pos.tokenId).bind fun settlement => settlement.settlePrice.bind fun price =>
        (settlement.resolutionTime.filter fun due => endedFull.any fun ended => due ≤ ended).map fun due => (price, due)) =
        (config.settlements.get? pos.tokenId).bind fun settlement => settlement.settlePrice.bind fun price =>
          (settlement.resolutionTime.filter fun due => ended.any fun ended => due ≤ ended).map fun due => (price, due) := by
      cases known : config.settlements.get? pos.tokenId with
      | none => rfl
      | some settlement =>
        cases priced : settlement.settlePrice with
        | none => simp only [Option.bind_some, priced, Option.bind_none]
        | some price =>
          cases timed : settlement.resolutionTime with
          | none => simp only [Option.bind_some, priced, timed, Option.filter_none]
          | some due =>
            have same := alike (not_le.1 spent) settlement price due known priced timed
            simp only [Option.bind_some, priced, timed, Option.filter_some, same]
    obtain ⟨moment, at_⟩ := Option.isSome_iff_exists.1 opened
    have closes : ((pos.lastMarkAt.or pos.openedAt).or endedFull).getD config.wallClock =
        ((pos.lastMarkAt.or pos.openedAt).or ended).getD config.wallClock := by
      simp only at at_
      rw [at_]
      cases pos.lastMarkAt with
      | none => rfl
      | some marked => rfl
    rw [resolved]
    split
    · exact ⟨_, matching, rfl, books.closePositionAt key pos _ _ true, others⟩
    · rw [closes]
      exact ⟨_, matching, rfl, books.closePositionAt key pos _ _ false, others⟩

theorem Lockstep.resolved (lockstep : Lockstep config seen time fast full) {entry : PositionKey × Position}
    (member : entry ∈ fast.portfolio.positions.entries) (large : dust < entry.2.size) {settlement : TokenSettlement} {price : ℚ}
    {due : Instant} (known : config.settlements.get? entry.2.tokenId = some settlement) (priced : settlement.settlePrice = some price)
    (timed : settlement.resolutionTime = some due) :
    (full.matching.now.any fun ended => due ≤ ended) = fast.matching.now.any fun ended => due ≤ ended := by
  have own : entry.2.tokenId = entry.1.1 := (lockstep.keyed entry member).1
  obtain ⟨portfolio, matching, rfl, -, engines, -, clock⟩ := lockstep.shadows
  rw [Bool.eq_iff_iff, Option.any_eq_true, Option.any_eq_true]
  constructor
  · rintro ⟨ended, at_, before⟩
    have passed : time = some ended := clock.symm.trans at_
    have listed : (due, entry.2.tokenId) ∈ config.resolutionSchedule := mem_resolutionSchedule.2 ⟨settlement, price, known, timed, priced⟩
    rcases lockstep.swept.behind _ listed with waiting | ⟨-, matched | cleared⟩
    · have ahead := lockstep.swept.ahead _ waiting ended passed
      exact absurd (of_decide_eq_true before) (not_le.2 ahead)
    · obtain ⟨reached, known, after⟩ := matched
      exact ⟨reached, known, decide_eq_true after⟩
    · exact absurd (cleared entry member own.symm) (not_le.2 large)
  · rintro ⟨ended, at_, before⟩
    obtain ⟨later, reached, after⟩ := engines.behind ended at_
    exact ⟨later, reached, decide_eq_true ((of_decide_eq_true before).trans after)⟩

theorem Lockstep.finish (lockstep : Lockstep config seen time fast full) :
    Shadows seen fast.matching.now time (finish config fast) (finish config full) := by
  unfold BacktestEngine.finish
  by_cases closes : config.finalCloseAtLastMid = true
  · rw [if_pos closes, if_pos closes]
    have each : ∀ (entries : List (PositionKey × Position)) (first second : BacktestEngine σ ρ),
        (∀ entry ∈ entries, entry ∈ fast.portfolio.positions.entries) → Shadows seen fast.matching.now time first second →
          Shadows seen fast.matching.now time (entries.foldl (closeAtEnd config fast.matching.now) first)
            (entries.foldl (closeAtEnd config full.matching.now) second) := by
      intro entries
      induction entries with
      | nil => exact fun _ _ _ start => start
      | cons entry rest ih =>
        intro first second members start
        have member := members entry List.mem_cons_self
        apply ih _ _ fun other later => members other (List.mem_cons_of_mem _ later)
        exact start.closeAtEnd config (lockstep.keyed entry member).2 fun large settlement price due known priced timed =>
          lockstep.resolved member large known priced timed
    have positions : full.portfolio.positions = fast.portfolio.positions := by
      obtain ⟨portfolio, matching, rfl, books, -⟩ := lockstep.shadows
      exact books.positions
    have closed := each fast.portfolio.positions.entries fast full (fun _ member => member) lockstep.shadows
    unfold finalMarkToMarket
    simp only [positions]
    generalize fast.portfolio.positions.entries.foldl (BacktestEngine.closeAtEnd config fast.matching.now) fast = first at closed ⊢
    generalize fast.portfolio.positions.entries.foldl (BacktestEngine.closeAtEnd config full.matching.now) full = second at closed ⊢
    obtain ⟨portfolio, matching, rfl, books, others⟩ := closed
    refine ⟨_, matching, rfl, ⟨?_, fun whole => ?_⟩, others⟩
    · show portfolio.unrecorded = first.portfolio.unrecorded
      exact books.same
    · simp only
      rw [Drawdown.ofHistory_append, Drawdown.ofHistory_append, books.equity]
      exact (books.alike whole).observe _ _ _
  · rw [if_neg closes, if_neg closes]
    exact lockstep.shadows

theorem lockstep_new (config : BacktestConfig σ π ρ) (strategy : σ) (latency : ρ) (intents : List TradeIntent) :
    Lockstep config seen none (new config strategy latency intents) (new config strategy latency intents) :=
  ⟨⟨_, _, rfl, ⟨rfl, fun _ => .refl _⟩, MatchingEngine.shadows_empty, rfl, rfl⟩, Dict.all_empty _, fun _ _ found => (by cases found),
    swept_new config strategy latency intents⟩

/-- The results of two runs: the same fills in the same order, the same orders, cash, open and closed positions and
final equity, and the same maximum drawdown if no mark left out was needed for it. -/
structure SameOutcome (seen : Prop) (fast full : BacktestEngine σ ρ) : Prop where
  fills : full.matching.allFills = fast.matching.allFills
  orders : full.matching.orders = fast.matching.orders
  cash : full.portfolio.cashUsd = fast.portfolio.cashUsd
  positions : full.portfolio.positions = fast.portfolio.positions
  closed : full.portfolio.closedPositions = fast.portfolio.closedPositions
  equity : full.portfolio.equityUsd = fast.portfolio.equityUsd
  drawdown : seen → (Drawdown.ofHistory full.portfolio.equityHistory).usd = (Drawdown.ofHistory fast.portfolio.equityHistory).usd ∧
    (Drawdown.ofHistory full.portfolio.equityHistory).part = (Drawdown.ofHistory fast.portfolio.equityHistory).part

theorem Shadows.sameOutcome (shadows : Shadows seen past now fast full) : SameOutcome seen fast full := by
  obtain ⟨portfolio, matching, rfl, books, engines, -⟩ := shadows
  have cash : portfolio.unrecorded.cashUsd = fast.portfolio.unrecorded.cashUsd := by rw [books.same]
  have closed : portfolio.unrecorded.closedPositions = fast.portfolio.unrecorded.closedPositions := by rw [books.same]
  obtain ⟨shown, time, rfl⟩ := engines.rebooked
  exact ⟨rfl, rfl, cash, books.positions, closed, books.equity, fun whole => ⟨(books.alike whole).usd, (books.alike whole).part⟩⟩

instance decidableUnremarkable (config : BacktestConfig σ π ρ) (engine : BacktestEngine σ ρ) (snapshot : BookSnapshot) :
    Decidable (Unremarkable config engine snapshot) := by
  unfold Unremarkable Drawdown.Covers
  infer_instance

def MarksEnough (config : BacktestConfig σ π ρ) (run : Except MatchingError (BacktestEngine σ ρ)) (snapshot : BookSnapshot) : Prop :=
  ∀ engine, run = .ok engine → Unremarkable config engine snapshot

instance decidableMarksEnough (config : BacktestConfig σ π ρ) :
    ∀ (run : Except MatchingError (BacktestEngine σ ρ)) (snapshot : BookSnapshot), Decidable (MarksEnough config run snapshot)
  | .error _, _ => isTrue fun _ same => nomatch same
  | .ok engine, snapshot => decidable_of_iff (Unremarkable config engine snapshot)
    ⟨fun enough _ same => (by cases same; exact enough), fun enough => enough engine rfl⟩

/-- Passing over snapshots changes no result but the drawdown, and not that one unless a mark left out would have shown
a new peak or a deeper fall. -/
theorem bailed_run (config : BacktestConfig σ π ρ) (strategy : σ) (latency : ρ) (intents : List TradeIntent)
    {snapshots : List BookSnapshot} (chronological : snapshots.Pairwise fun first second => first.observedAt ≤ second.observedAt) :
    Agree (SameOutcome (Meets (step config true) (MarksEnough config) (.ok (new config strategy latency intents)) snapshots))
      ((run (step config true) (.ok (new config strategy latency intents)) snapshots).map (finish config))
      ((run (step config false) (.ok (new config strategy latency intents)) snapshots).map (finish config)) := by
  generalize same : Meets (step config true) (MarksEnough config) (.ok (new config strategy latency intents)) snapshots = seen
  have last := @run_related _ _ _ (step config true) (step config false) (fun first second rest =>
    (seen → Meets (step config true) (MarksEnough config) first rest) ∧
      rest.Pairwise (fun first second => first.observedAt ≤ second.observedAt) ∧
        Agree (fun fast full => ∃ time, Lockstep config seen time fast full ∧
          ∀ snapshot ∈ rest, ∀ now ∈ time, now ≤ snapshot.observedAt) first second)
    (by
      rintro first second snapshot rest ⟨enough, sorted, agree⟩
      rw [List.pairwise_cons] at sorted
      refine ⟨fun whole => (enough whole).2, sorted.2, ?_⟩
      cases agree with
      | raised error => exact .raised error
      | @returned fast full related =>
        obtain ⟨time, lockstep, later⟩ := related
        have next := lockstep.onSnapshot (later snapshot List.mem_cons_self) fun whole => (enough whole).1 _ rfl
        apply next.imp
        intro fast full related
        refine ⟨_, related, fun other member now known => ?_⟩
        cases known
        exact sorted.1 other member)
    (.ok (new config strategy latency intents)) (.ok (new config strategy latency intents)) snapshots
    ⟨fun whole => by rw [same]; exact whole, chronological, .returned ⟨none, lockstep_new config strategy latency intents,
      fun _ _ _ missing => (by cases missing)⟩⟩
  obtain ⟨-, -, agree⟩ := last
  generalize run (step config true) (.ok (new config strategy latency intents)) snapshots = first at agree ⊢
  generalize run (step config false) (.ok (new config strategy latency intents)) snapshots = second at agree ⊢
  cases agree with
  | raised error => exact .raised error
  | returned related =>
    obtain ⟨time, lockstep, -⟩ := related
    exact .returned lockstep.finish.sameOutcome

/-- A run without a strategy, with orders that take a quarter of a second to reach the venue. -/
def unattended : BacktestConfig Unit Unit Unit where
  planChildren := fun _ _ _ _ _ => []
  sampleSubmit := fun _ _ => ((), 250000)
  makeOrderId := fun _ => "made"

def paysSpread : TradeIntent where
  intentId := "a"
  emittedAt := 1000000
  tokenId := "T"
  side := .buy
  size := 10
  limitPrice := 51 / 100
  tif := .ioc

def shownAt (tokenId : String) (moment : Instant) : BookSnapshot := ⟨tokenId, moment, [⟨49 / 100, 100⟩], [⟨51 / 100, 100⟩], none⟩

theorem bailed_run_after_mark :
    Meets (step unattended true) (MarksEnough unattended) (.ok (new unattended () () [paysSpread])) [shownAt "T" 2000000, shownAt "U" 3000000] ∧
      Agree (SameOutcome (Meets (step unattended true) (MarksEnough unattended) (.ok (new unattended () () [paysSpread]))
          [shownAt "T" 2000000, shownAt "U" 3000000]))
        ((run (step unattended true) (.ok (new unattended () () [paysSpread])) [shownAt "T" 2000000, shownAt "U" 3000000]).map
          (finish unattended))
        ((run (step unattended false) (.ok (new unattended () () [paysSpread])) [shownAt "T" 2000000, shownAt "U" 3000000]).map
          (finish unattended)) :=
  ⟨by decide +kernel, bailed_run unattended () () [paysSpread] (by decide)⟩

def maxDrawdownUsd (result : Except MatchingError (BacktestEngine σ ρ)) : Option ℚ :=
  result.toOption.map fun engine => (Drawdown.ofHistory engine.portfolio.equityHistory).usd

/-- The first snapshot is passed over, and with it the peak from which the spread of the entry is lost. -/
theorem bail_hides_peak :
    [shownAt "T" 0, shownAt "T" 2000000].Pairwise (fun first second => first.observedAt ≤ second.observedAt) ∧
      ¬ Agree (SameOutcome True)
        ((run (step unattended true) (.ok (new unattended () () [paysSpread])) [shownAt "T" 0, shownAt "T" 2000000]).map
          (finish unattended))
        ((run (step unattended false) (.ok (new unattended () () [paysSpread])) [shownAt "T" 0, shownAt "T" 2000000]).map
          (finish unattended)) := by
  refine ⟨by decide, fun agree => ?_⟩
  have differ : maxDrawdownUsd ((run (step unattended true) (.ok (new unattended () () [paysSpread]))
        [shownAt "T" 0, shownAt "T" 2000000]).map (finish unattended)) ≠
      maxDrawdownUsd ((run (step unattended false) (.ok (new unattended () () [paysSpread]))
        [shownAt "T" 0, shownAt "T" 2000000]).map (finish unattended)) := by
    decide +kernel
  generalize Except.map (finish unattended) (run (step unattended true) _ _) = first at agree differ
  generalize Except.map (finish unattended) (run (step unattended false) _ _) = second at agree differ
  cases agree with
  | raised error => exact differ rfl
  | returned same => exact differ (congrArg some (same.drawdown trivial).1.symm)

end BacktestEngine

end Callisto.Backtest
