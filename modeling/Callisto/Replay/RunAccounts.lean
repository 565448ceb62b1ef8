import Callisto.Replay.ExecutionSimulator

/-! What a run replays, books and closes, and when it keeps to what is known and to the side of the signal. -/

namespace Callisto.Replay

def ofType (type : EventType) (events : List SimEvent) : List SimEvent := events.filter fun event => event.eventType = type

def booked (events : List SimEvent) : List SimEvent :=
  events.filter fun event => event.eventType = .orderFilled ∨ event.eventType = .positionMtmClose

def feesOf (events : List SimEvent) : ℚ := ((booked events).map fun event => event.feesUsd.getD 0).sum

def pnlOf (events : List SimEvent) : ℚ := ((booked events).map fun event => event.realizedPnlUsd.getD 0).sum

def SimEvent.key (event : SimEvent) : String × String × Direction × Option ℚ :=
  (event.signalId, event.marketId, event.direction, event.quantity)

def OpenPosition.key (position : OpenPosition) : String × String × Direction × Option ℚ :=
  (position.signalId, position.marketId, position.direction, some position.quantity)

def Direction.Buys (direction : Direction) : Prop := direction = .buyYes ∨ direction = .buyNo

def Direction.Sells (direction : Direction) : Prop := direction = .sellYes ∨ direction = .sellNo

namespace Simulation
variable {δ μ : Type} (simulation : Simulation δ μ)

/-- A run that keeps to what is known at each emission, whose totals are those of its events, that closes what it fills, and whose closes
follow the side of the signal. -/
structure Faithful (emissions : List (Emission δ)) : Prop where
  looks_back : ∀ call ∈ (simulation.run emissions).calls, ∀ ts, call.signal.emission.createdAtMs = some ts →
    LooksBack (simulation.fetchPoints call.marketRef call.outcome).points ts call.replayPoint call.liveContext.historySummary
  fees : (simulation.run emissions).totalFees = feesOf (simulation.run emissions).events
  realized : (simulation.run emissions).totalRealized = pnlOf (simulation.run emissions).events
  filled : (ofType .orderFilled (simulation.run emissions).events).map SimEvent.key = (simulation.run emissions).openPositions.map OpenPosition.key
  closed : (ofType .positionMtmClose (simulation.run emissions).events).map SimEvent.key =
    (ofType .orderFilled (simulation.run emissions).events).map SimEvent.key
  marked : (ofType .positionMtmClose (simulation.run emissions).events).map SimEvent.realizedPnlUsd =
    (simulation.run emissions).openPositions.map fun position =>
      (simulation.fetchPoints position.marketRef position.outcome).points.getLast?.map fun final =>
        pnlAt position.entryPrice position.quantity simulation.feeBps (final.p.getD position.entryPrice)
  rising : simulation.feeBps ≤ 10000 → ∀ position ∈ (simulation.run emissions).openPositions, position.direction.Buys →
    Monotone (pnlAt position.entryPrice position.quantity simulation.feeBps)
  falling : simulation.feeBps ≤ 10000 → ∀ position ∈ (simulation.run emissions).openPositions, position.direction.Sells →
    Antitone (pnlAt position.entryPrice position.quantity simulation.feeBps)

def Replays (emission : Emission δ) : Prop :=
  simulation.replayable emission = true ∧ (simulation.decision emission).decision = "selected" ∧ simulation.marketRef emission ≠ ""

def points (emission : Emission δ) : List Point := (simulation.fetchPoints (simulation.marketRef emission) (simulation.outcome emission)).points

open Classical in
/-- The leg an emission is replayed with. -/
noncomputable def callOf (emission : Emission δ) : Option (LegCall δ μ) :=
  if simulation.Replays emission then (findPointForTs (simulation.points emission) emission.createdAtMs).map fun found =>
    simulation.legCall emission (simulation.points emission) found.1 found.2
  else none

noncomputable def positionOf (emission : Emission δ) : Option OpenPosition :=
  (simulation.callOf emission).bind fun call => if simulation.isFilled emission call then some (simulation.openPosition emission call) else none

/-- No replayed emission is before its series, and no signal to sell is filled with shares, unless the fee takes the whole price. -/
structure Ordinary (emissions : List (Emission δ)) : Prop where
  reached : ∀ emission ∈ emissions, simulation.Replays emission → ∀ ts, emission.createdAtMs = some ts →
    ∀ first, (simulation.points emission).head? = some first → first.t ≤ ts
  bought : simulation.feeBps < 10000 → ∀ emission ∈ emissions, (simulation.direction emission).Sells →
    ∀ call, simulation.callOf emission = some call →
    simulation.isFilled emission call = true → simulation.submittedShares emission call ≤ 0

structure Replayed (emissions : List (Emission δ)) (state : RunState δ μ) : Prop where
  cached : ∀ key series, state.pointCache key = some series → series = simulation.fetchPoints key.1 key.2
  calls : state.calls = emissions.filterMap simulation.callOf
  positions : state.openPositions = emissions.filterMap simulation.positionOf
  fees : state.totalFees = feesOf state.events
  unrealized : state.totalRealized = 0 ∧ pnlOf state.events = 0
  filled : (ofType .orderFilled state.events).map SimEvent.key = state.openPositions.map OpenPosition.key
  unclosed : ofType .positionMtmClose state.events = []
  priced : ∀ position ∈ state.openPositions, 0 ≤ position.quantity ∧
    ∃ series, state.pointCache (position.marketRef, position.outcome) = some series ∧ series.points ≠ []

theorem booked_append (first second : List SimEvent) : booked (first ++ second) = booked first ++ booked second := List.filter_append ..

theorem ofType_append (type : EventType) (first second : List SimEvent) : ofType type (first ++ second) = ofType type first ++ ofType type second :=
  List.filter_append ..

theorem feesOf_append (first second : List SimEvent) : feesOf (first ++ second) = feesOf first + feesOf second := by
  unfold feesOf
  rw [booked_append, List.map_append, List.sum_append]

theorem pnlOf_append (first second : List SimEvent) : pnlOf (first ++ second) = pnlOf first + pnlOf second := by
  unfold pnlOf
  rw [booked_append, List.map_append, List.sum_append]

theorem feesOf_unbooked {event : SimEvent} (unbooked : booked [event] = []) : feesOf [event] = 0 := by rw [feesOf, unbooked]; rfl

theorem pnlOf_unbooked {event : SimEvent} (unbooked : booked [event] = []) : pnlOf [event] = 0 := by rw [pnlOf, unbooked]; rfl

section Replay
variable {simulation} {emissions : List (Emission δ)} {state : RunState δ μ} {emission : Emission δ}

theorem replayed_start : simulation.Replayed [] {} :=
  { cached := fun _ _ held => (nomatch held), calls := rfl, positions := rfl, fees := rfl, unrealized := ⟨rfl, rfl⟩, filled := rfl, unclosed := rfl,
    priced := fun _ member => nomatch member }

theorem callOf_of_replays (replays : simulation.Replays emission) : simulation.callOf emission =
    (findPointForTs (simulation.points emission) emission.createdAtMs).map fun found =>
      simulation.legCall emission (simulation.points emission) found.1 found.2 := if_pos replays

theorem callOf_of_not_replays (passed : ¬ simulation.Replays emission) : simulation.callOf emission = none := if_neg passed

section Steps
variable (replayed : simulation.Replayed emissions state)
include replayed

theorem Replayed.idle (idle : simulation.callOf emission = none) :
    simulation.Replayed (emissions ++ [emission]) state :=
  { replayed with
    calls := by
      rw [List.filterMap_append, replayed.calls, List.filterMap_cons_none idle, List.filterMap_nil, List.append_nil]
    positions := by
      have unfilled : simulation.positionOf emission = none := by rw [positionOf, idle]; rfl
      rw [List.filterMap_append, replayed.positions, List.filterMap_cons_none unfilled, List.filterMap_nil, List.append_nil] }

theorem Replayed.noted {event : SimEvent} {sequence evaluated selected skipped : ℕ}
    (unbooked : event.eventType = .signalEvaluated ∨ event.eventType = .orderUnfilled) :
    simulation.Replayed emissions
      { state with sequence := sequence, evaluated := evaluated, selected := selected, skipped := skipped, events := state.events ++ [event] } := by
  have nothing : booked [event] = [] ∧ ofType .orderFilled [event] = [] ∧ ofType .positionMtmClose [event] = [] := by
    rcases unbooked with type | type <;> simp [booked, ofType, type]
  refine { replayed with fees := ?_, unrealized := ⟨replayed.unrealized.1, ?_⟩, filled := ?_, unclosed := ?_ }
  · change state.totalFees = feesOf (state.events ++ [event])
    rw [feesOf_append, feesOf_unbooked nothing.1, add_zero, replayed.fees]
  · change pnlOf (state.events ++ [event]) = 0
    rw [pnlOf_append, pnlOf_unbooked nothing.1, add_zero, replayed.unrealized.2]
  · change (ofType .orderFilled (state.events ++ [event])).map SimEvent.key = _
    rw [ofType_append, nothing.2.1, List.append_nil, replayed.filled]
  · change ofType .positionMtmClose (state.events ++ [event]) = []
    rw [ofType_append, nothing.2.2, List.append_nil, replayed.unclosed]

theorem Replayed.counted {sequence evaluated selected filled skipped : ℕ} :
    simulation.Replayed emissions
      { state with sequence := sequence, evaluated := evaluated, selected := selected, filled := filled, skipped := skipped } :=
  { replayed with }

theorem Replayed.caches (key : String × Outcome) :
    simulation.Replayed emissions { state with pointCache := Function.update state.pointCache key (some (simulation.fetchPoints key.1 key.2)) } := by
  refine { replayed with cached := ?_, priced := ?_ }
  · intro other series held
    change Function.update state.pointCache key (some (simulation.fetchPoints key.1 key.2)) other = some series at held
    by_cases same : other = key
    · rw [same, Function.update_self] at held
      rw [same]
      exact (Option.some.inj held).symm
    · rw [Function.update_of_ne same] at held
      exact replayed.cached other series held
  · intro position member
    have ⟨nonneg, series, held, nonempty⟩ := replayed.priced position member
    refine ⟨nonneg, series, ?_, nonempty⟩
    change Function.update state.pointCache key (some (simulation.fetchPoints key.1 key.2)) (position.marketRef, position.outcome) = some series
    by_cases same : (position.marketRef, position.outcome) = key
    · rw [same, Function.update_self, ← same, replayed.cached _ _ held]
    · rw [Function.update_of_ne same, held]

theorem Replayed.submits {call : LegCall δ μ} (called : simulation.callOf emission = some call)
    (held : ∃ series, state.pointCache (call.marketRef, call.outcome) = some series ∧ series.points ≠ []) :
    simulation.Replayed (emissions ++ [emission]) (simulation.submitLeg state emission call) := by
  have calls : state.calls ++ [call] = (emissions ++ [emission]).filterMap simulation.callOf := by
    rw [List.filterMap_append, replayed.calls, List.filterMap_cons_some called, List.filterMap_nil]
  unfold submitLeg
  dsimp only
  by_cases filled : simulation.isFilled emission call = true
  · rw [if_pos filled]
    have opened : simulation.positionOf emission = some (simulation.openPosition emission call) := by
      rw [positionOf, called]
      exact if_pos filled
    refine { cached := replayed.cached, calls := calls, positions := ?_, fees := ?_, unrealized := ⟨replayed.unrealized.1, ?_⟩,
             filled := ?_, unclosed := ?_, priced := ?_ }
    · change state.openPositions ++ [simulation.openPosition emission call] = _
      rw [List.filterMap_append, replayed.positions, List.filterMap_cons_some opened, List.filterMap_nil]
    · change state.totalFees + _ = feesOf (state.events ++ [simulation.filledEvent state.sequence emission call])
      rw [feesOf_append, replayed.fees]
      exact congrArg (feesOf state.events + ·) (add_zero _).symm
    · change pnlOf (state.events ++ [simulation.filledEvent state.sequence emission call]) = 0
      rw [pnlOf_append, replayed.unrealized.2, zero_add]
      exact add_zero 0
    · change (ofType .orderFilled (state.events ++ [simulation.filledEvent state.sequence emission call])).map SimEvent.key =
        (state.openPositions ++ [simulation.openPosition emission call]).map OpenPosition.key
      rw [ofType_append, List.map_append, List.map_append, replayed.filled]
      rfl
    · change ofType .positionMtmClose (state.events ++ [simulation.filledEvent state.sequence emission call]) = []
      rw [ofType_append, replayed.unclosed]
      rfl
    · intro position member
      rcases List.mem_append.1 member with before | now
      · exact replayed.priced position before
      · rw [List.mem_singleton.1 now]
        exact ⟨le_max_left _ _, held⟩
  · rw [if_neg filled]
    have unopened : simulation.positionOf emission = none := by
      rw [positionOf, called]
      exact if_neg filled
    have noted := @Replayed.noted δ μ simulation emissions state replayed (simulation.unfilledEvent state.sequence emission call)
      (state.sequence + 1) state.evaluated state.selected (state.skipped + 1) (Or.inr rfl)
    refine { noted with calls := calls, positions := ?_ }
    change state.openPositions = _
    rw [List.filterMap_append, replayed.positions, List.filterMap_cons_none unopened, List.filterMap_nil, List.append_nil]

theorem Replayed.replays (replays : simulation.Replays emission) :
    simulation.Replayed (emissions ++ [emission]) (simulation.replayEmission state emission) := by
  have series : (state.pointCache (simulation.marketRef emission, simulation.outcome emission)).getD
      (simulation.fetchPoints (simulation.marketRef emission) (simulation.outcome emission)) =
      simulation.fetchPoints (simulation.marketRef emission) (simulation.outcome emission) := by
    cases held : state.pointCache (simulation.marketRef emission, simulation.outcome emission) with
    | none => rfl
    | some series => exact replayed.cached _ series held
  have cached := replayed.caches (simulation.marketRef emission, simulation.outcome emission)
  have called := callOf_of_replays replays
  unfold replayEmission
  dsimp only
  rw [series]
  rw [show (simulation.fetchPoints (simulation.marketRef emission) (simulation.outcome emission)).points = simulation.points emission from rfl]
  cases found : findPointForTs (simulation.points emission) emission.createdAtMs with
  | none =>
    rw [found] at called
    exact (cached.counted).idle called
  | some position =>
    rw [found] at called
    refine cached.submits called ⟨_, Function.update_self .., fun empty => ?_⟩
    have unfound : findPointForTs (simulation.points emission) emission.createdAtMs = none := by
      change findPointForTs (simulation.fetchPoints (simulation.marketRef emission) (simulation.outcome emission)).points _ = none
      rw [empty]
      cases emission.createdAtMs <;> rfl
    rw [unfound] at found
    exact nomatch found

theorem Replayed.step (emission : Emission δ) :
    simulation.Replayed (emissions ++ [emission]) (simulation.processEmission state emission) := by
  unfold processEmission
  dsimp only
  by_cases live : simulation.replayable emission = true
  · rw [if_pos live]
    by_cases passed : (simulation.decision emission).decision ≠ "selected"
    · rw [if_pos passed]
      exact (replayed.noted (Or.inl rfl)).idle (callOf_of_not_replays fun replays => passed replays.2.1)
    · rw [if_neg passed]
      by_cases unplaced : simulation.marketRef emission = ""
      · rw [if_pos unplaced]
        exact (replayed.noted (Or.inl rfl)).idle (callOf_of_not_replays fun replays => replays.2.2 unplaced)
      · rw [if_neg unplaced]
        exact (replayed.noted (Or.inl rfl)).replays ⟨live, not_not.1 passed, unplaced⟩
  · rw [if_neg live]
    exact replayed.idle (callOf_of_not_replays fun replays => live replays.1)

end Steps

theorem replayed_run (emissions : List (Emission δ)) : simulation.Replayed emissions (emissions.foldl simulation.processEmission {}) := by
  induction emissions using List.reverseRecOn with
  | nil => exact replayed_start
  | append_singleton emissions emission ih =>
    rw [List.foldl_append]
    exact ih.step emission

end Replay

structure Closing (positions : List OpenPosition) (state final : RunState δ μ) (closes : List SimEvent) : Prop where
  calls : final.calls = state.calls
  kept : final.openPositions = state.openPositions
  events : final.events = state.events ++ closes
  types : ∀ event ∈ closes, event.eventType = .positionMtmClose
  fees : final.totalFees = state.totalFees + feesOf closes
  realized : final.totalRealized = state.totalRealized + pnlOf closes
  keys : closes.map SimEvent.key = positions.map OpenPosition.key
  marked : closes.map SimEvent.realizedPnlUsd = positions.map fun position =>
    (simulation.fetchPoints position.marketRef position.outcome).points.getLast?.map fun final =>
      pnlAt position.entryPrice position.quantity simulation.feeBps (final.p.getD position.entryPrice)

section Close
variable {simulation} {state : RunState δ μ}

theorem closing_run {positions : List OpenPosition}
    (cached : ∀ key series, state.pointCache key = some series → series = simulation.fetchPoints key.1 key.2)
    (priced : ∀ position ∈ positions, 0 ≤ position.quantity ∧
      ∃ series, state.pointCache (position.marketRef, position.outcome) = some series ∧ series.points ≠ []) :
    ∃ closes, simulation.Closing positions state (positions.foldl simulation.closePosition state) closes := by
  induction positions generalizing state with
  | nil =>
    exact ⟨[], { calls := rfl, kept := rfl, events := (List.append_nil _).symm, types := fun _ member => (nomatch member),
                 fees := (add_zero _).symm, realized := (add_zero _).symm, keys := rfl, marked := rfl }⟩
  | cons position positions ih =>
    have ⟨nonneg, series, held, nonempty⟩ := priced position List.mem_cons_self
    have fetched := cached _ _ held
    have ⟨final, last⟩ := Option.isSome_iff_exists.1 (List.getLast?_isSome.2 nonempty)
    have closed : simulation.closePosition state position = simulation.bookClose state position final := by
      unfold closePosition
      rw [held, Option.bind_some, last]
    have ⟨closes, closing⟩ := @ih (simulation.closePosition state position) (by rw [closed]; exact cached)
      (by rw [closed]; exact fun other member => priced other (List.mem_cons_of_mem _ member))
    rw [closed] at closing
    have last_fetched : (simulation.fetchPoints position.marketRef position.outcome).points.getLast? = some final := fetched ▸ last
    refine ⟨simulation.closeEvent state.sequence position final :: closes, ?_⟩
    rw [List.foldl_cons, closed]
    refine { calls := closing.calls, kept := closing.kept, events := ?_, types := ?_, fees := ?_, realized := ?_, keys := ?_, marked := ?_ }
    · rw [closing.events]
      exact List.append_assoc ..
    · intro event member
      rcases List.mem_cons.1 member with now | later
      · rw [now]
        rfl
      · exact closing.types event later
    · rw [closing.fees, ← List.singleton_append, feesOf_append]
      change state.totalFees + _ + feesOf closes = state.totalFees + (_ + 0 + feesOf closes)
      rw [add_zero, add_assoc]
      rfl
    · rw [closing.realized, ← List.singleton_append, pnlOf_append]
      change state.totalRealized + _ + pnlOf closes = state.totalRealized + (_ + 0 + pnlOf closes)
      rw [add_zero, add_assoc]
      rfl
    · rw [List.map_cons, List.map_cons, closing.keys]
      have quantity : max 0 position.quantity = position.quantity := max_eq_right nonneg
      refine congrArg (· :: _) ?_
      change (position.signalId, position.marketId, position.direction, some (max 0 position.quantity)) = _
      rw [quantity]
      rfl
    · rw [List.map_cons, List.map_cons, closing.marked, last_fetched]
      rfl

end Close

section Run
variable {simulation} {emissions : List (Emission δ)}

theorem ofType_closes {closes : List SimEvent} (types : ∀ event ∈ closes, event.eventType = .positionMtmClose) :
    ofType .positionMtmClose closes = closes ∧ ofType .orderFilled closes = [] := by
  refine ⟨List.filter_eq_self.2 fun event member => decide_eq_true (types event member), List.filter_eq_nil_iff.2 fun event member => ?_⟩
  rw [types event member]
  decide

theorem run_closing (emissions : List (Emission δ)) : ∃ state closes, simulation.Replayed emissions state ∧
    simulation.Closing state.openPositions state (simulation.run emissions) closes := by
  have replayed := @replayed_run δ μ simulation emissions
  have ⟨closes, closing⟩ := @closing_run δ μ simulation _ _ replayed.cached replayed.priced
  exact ⟨_, closes, replayed, closing⟩

theorem run_calls (emissions : List (Emission δ)) : (simulation.run emissions).calls = emissions.filterMap simulation.callOf := by
  have ⟨_, _, replayed, closing⟩ := @run_closing δ μ simulation emissions
  rw [closing.calls, replayed.calls]

theorem run_positions (emissions : List (Emission δ)) : (simulation.run emissions).openPositions = emissions.filterMap simulation.positionOf := by
  have ⟨_, _, replayed, closing⟩ := @run_closing δ μ simulation emissions
  rw [closing.kept, replayed.positions]

theorem callOf_some {emission : Emission δ} {call : LegCall δ μ} (called : simulation.callOf emission = some call) :
    simulation.Replays emission ∧ ∃ idx, findPointForTs (simulation.points emission) emission.createdAtMs = some (idx, call.replayPoint) ∧
      call = simulation.legCall emission (simulation.points emission) idx call.replayPoint := by
  by_cases replays : simulation.Replays emission
  · rw [callOf_of_replays replays] at called
    have ⟨found, found_eq, call_eq⟩ := Option.map_eq_some_iff.1 called
    have point : call.replayPoint = found.2 := by rw [← call_eq]; rfl
    refine ⟨replays, found.1, ?_, ?_⟩
    · rw [point]
      exact found_eq
    · rw [point]
      exact call_eq.symm
  · rw [callOf_of_not_replays replays] at called
    exact nomatch called

theorem positionOf_some {emission : Emission δ} {position : OpenPosition} (opened : simulation.positionOf emission = some position) :
    ∃ call, simulation.callOf emission = some call ∧ simulation.isFilled emission call = true ∧ simulation.openPosition emission call = position := by
  have ⟨call, called, filled⟩ := Option.bind_eq_some_iff.1 opened
  have ⟨isFilled, same⟩ := Option.ite_none_right_eq_some.1 filled
  exact ⟨call, called, isFilled, Option.some.inj same⟩

theorem head_le_of_known {series : PriceSeries} {ts : ℤ} (reached : known ts series.points ≠ []) {first : Point}
    (head : series.points.head? = some first) : first.t ≤ ts := by
  have ⟨point, member⟩ := List.exists_mem_of_ne_nil _ reached
  have ⟨stored, before⟩ := List.mem_filter.1 member
  have ⟨rest, points⟩ := List.head?_eq_some_iff.1 head
  have sorted := series.sorted
  rw [points] at sorted stored
  rcases List.mem_cons.1 stored with same | later
  · exact same ▸ of_decide_eq_true before
  · exact ((List.pairwise_cons.1 sorted).1 point later).trans (of_decide_eq_true before)

theorem known_of_head_le {series : PriceSeries} {ts : ℤ} {first : Point} (head : series.points.head? = some first) (early : first.t ≤ ts) :
    known ts series.points ≠ [] :=
  List.ne_nil_of_mem (List.mem_filter.2 ⟨List.mem_of_head? head, decide_eq_true early⟩)

theorem Faithful.reached (faithful : simulation.Faithful emissions) {emission : Emission δ} (member : emission ∈ emissions)
    (replays : simulation.Replays emission) {ts : ℤ} (time : emission.createdAtMs = some ts) {first : Point}
    (head : (simulation.points emission).head? = some first) : first.t ≤ ts := by
  have called := callOf_of_replays replays
  cases found : findPointForTs (simulation.points emission) emission.createdAtMs with
  | none =>
    have in_range : candidateIndex ts (simulation.points emission) 0 0 < (simulation.points emission).length := by
      have ⟨rest, points⟩ := List.head?_eq_some_iff.1 head
      have positive : 0 < (simulation.points emission).length := by
        rw [points, List.length_cons]
        omega
      have shorter := (List.takeWhile_sublist (fun point : Point => decide (point.t ≤ ts)) (l := simulation.points emission)).length_le
      rw [candidateIndex_eq]
      split <;> omega
    rw [time] at found
    unfold findPointForTs at found
    dsimp only at found
    rw [List.getElem?_eq_getElem in_range] at found
    exact nomatch found
  | some position =>
    rw [found] at called
    have in_calls : simulation.legCall emission (simulation.points emission) position.1 position.2 ∈ (simulation.run emissions).calls := by
      rw [run_calls]
      exact List.mem_filterMap.2 ⟨emission, member, called⟩
    have back := faithful.looks_back _ in_calls ts time
    rw [time] at found
    exact head_le_of_known ((looksBack_iff found).1 back) head

theorem Faithful.bought (faithful : simulation.Faithful emissions) (charged : simulation.feeBps < 10000) {emission : Emission δ}
    (member : emission ∈ emissions) (sells : (simulation.direction emission).Sells) {call : LegCall δ μ}
    (called : simulation.callOf emission = some call)
    (filled : simulation.isFilled emission call = true) : simulation.submittedShares emission call ≤ 0 := by
  have opened : simulation.positionOf emission = some (simulation.openPosition emission call) := by
    rw [positionOf, called]
    exact if_pos filled
  have position : simulation.openPosition emission call ∈ (simulation.run emissions).openPositions := by
    rw [run_positions]
    exact List.mem_filterMap.2 ⟨emission, member, opened⟩
  have falling := faithful.falling charged.le _ position sells
  rcases (pnlAt_antitone_iff charged.le).1 falling with none_held | full
  · exact (le_max_right _ _).trans none_held
  · exact absurd full charged.ne

theorem Ordinary.faithful (ordinary : simulation.Ordinary emissions) : simulation.Faithful emissions := by
  have ⟨state, closes, replayed, closing⟩ := @run_closing δ μ simulation emissions
  have ⟨closed, unfilled⟩ := ofType_closes closing.types
  have fills : ofType .orderFilled (simulation.run emissions).events = ofType .orderFilled state.events := by
    rw [closing.events, ofType_append, unfilled, List.append_nil]
  have all_closes : ofType .positionMtmClose (simulation.run emissions).events = closes := by
    rw [closing.events, ofType_append, replayed.unclosed, closed, List.nil_append]
  constructor
  case looks_back =>
    intro call member ts time
    rw [run_calls] at member
    have ⟨emission, emitted, called⟩ := List.mem_filterMap.1 member
    have ⟨replays, idx, found, call_eq⟩ := callOf_some called
    rw [call_eq] at time ⊢
    change emission.createdAtMs = some ts at time
    rw [time] at found
    refine (looksBack_iff found).2 ?_
    cases head : (simulation.points emission).head? with
    | none =>
      have empty := List.head?_eq_none_iff.1 head
      rw [empty] at found
      exact nomatch found
    | some first => exact known_of_head_le head (ordinary.reached emission emitted replays ts time first head)
  case fees => rw [closing.fees, closing.events, feesOf_append, replayed.fees]
  case realized => rw [closing.realized, closing.events, pnlOf_append, replayed.unrealized.1, replayed.unrealized.2]
  case filled => rw [fills, replayed.filled, closing.kept]
  case closed => rw [fills, all_closes, closing.keys, replayed.filled]
  case marked => rw [all_closes, closing.marked, closing.kept]
  case rising => exact fun capped _ _ _ => pnlAt_mono capped
  case falling =>
    intro capped position member sells
    rw [run_positions] at member
    have ⟨emission, emitted, opened⟩ := List.mem_filterMap.1 member
    have ⟨call, called, filled, same⟩ := positionOf_some opened
    refine (pnlAt_antitone_iff capped).2 ?_
    rcases capped.lt_or_eq with charged | full
    · rw [← same] at sells ⊢
      exact Or.inl (max_le le_rfl (ordinary.bought charged emission emitted sells call called filled))
    · exact Or.inr full

end Run

/-- A run is faithful exactly when no replayed emission is before its series and no signal to sell is filled. -/
theorem run_faithful_iff (emissions : List (Emission δ)) : simulation.Faithful emissions ↔ simulation.Ordinary emissions :=
  ⟨fun faithful => {
      reached := fun _ member replays _ time _ head => faithful.reached member replays time head
      bought := fun charged _ member sells _ called filled => faithful.bought charged member sells called filled },
    Ordinary.faithful⟩

end Simulation

/-- A strategy that selects everything, a series from second one on, and a full fill. -/
def openHouse : Simulation Unit Unit where
  clean := id
  polymarket := false
  marketRefOverride := ""
  feeBpsPayload := some 0
  defaultNotionalPayload := none
  evaluate _ _ := { decision := "selected", reason := "", score := none, sizeUsd := none }
  fetchPoints _ _ := { points := [⟨1000, some (1 / 2)⟩, ⟨2000, some (3 / 5)⟩], sorted := by decide }
  microstructure _ _ := none
  submit _ _ := { status := "executed", errorMessage := "", effectivePrice := none, notionalUsd := none, shares := some 10, slippageBps := none }

def emitted (direction : String) (createdAtMs : ℤ) : Emission Unit where
  id := "e"
  signalId := "s"
  source := "scanner"
  signalType := "edge"
  marketId := "m"
  status := "pending"
  direction := direction
  entryPrice := some (1 / 2)
  edgePercent := none
  confidence := none
  liquidity := none
  createdAtMs := some createdAtMs
  payload := { direction := "", marketQuestion := "", question := "", liquidity := none, yesTokenIds := [], noTokenIds := [],
               selectedTokenIds := [], tokenIds := [], other := () }

/-- An emission before the series is replayed at its first point; a signal to sell is closed as a purchase. -/
theorem openHouse_not_faithful : ¬ openHouse.Faithful [emitted "buy_yes" 500] ∧ ¬ openHouse.Faithful [emitted "sell_yes" 1500] := by
  refine ⟨fun faithful => ?_, fun faithful => ?_⟩
  · have late := faithful.reached List.mem_cons_self (show openHouse.Replays (emitted "buy_yes" 500) from ⟨by decide, rfl, by decide⟩)
      (show (emitted "buy_yes" 500).createdAtMs = some 500 from rfl)
      (show (openHouse.points (emitted "buy_yes" 500)).head? = some ⟨1000, some (1 / 2)⟩ from rfl)
    exact absurd late (by decide)
  · have replays : openHouse.Replays (emitted "sell_yes" 1500) := ⟨by decide, rfl, by decide⟩
    have sold := faithful.bought (by decide +kernel) List.mem_cons_self (Or.inl (by decide)) (Simulation.callOf_of_replays replays) (by decide)
    exact absurd sold (by decide +kernel)

end Callisto.Replay
