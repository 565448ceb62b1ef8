import Callisto.MarketData.DeltaTape

/-! Whole runs of the capture: what the deltas of a token take from its prints, and what its books lose. -/

namespace Callisto.MarketData.Capture

open Callisto.Library

def TokenState.levels (state : TokenState) (side : BookSide) : Dict ℚ ℚ :=
  match side with
  | .bid => state.bids
  | .ask => state.asks

def notedSize (tape : List RecentTrade) (print : ℕ) : ℚ := (tape[print]?.map RecentTrade.size).getD 0

/-- Every trade size comes from noted prints, near the price and recent enough, and none is used beyond its size. -/
structure TapeKept (state : TokenState) : Prop where
  sources : ∀ row ∈ state.deltas, row.tradeSize.getD 0 = takenSize row.takings ∧ ∀ taking ∈ row.takings, 0 ≤ taking.2 ∧
    ∃ noted, state.tape[taking.1]? = some noted ∧ |noted.price - row.price| < 1 / 10000 ∧ row.observedAt - tradeMatchWindowSeconds ≤ noted.timestamp
  once : ∀ print, usedOf print state.deltas ≤ notedSize state.tape print
  total : tradedSize state.deltas ≤ heldSize state.tape

/-- The state of a token with what the buffer still holds in the balance. -/
structure Sound (state : TokenState) : Prop where
  nonneg : ∀ trade ∈ state.recentTrades, 0 ≤ trade.size
  stored : ∀ trade ∈ state.recentTrades, ∃ noted, state.tape[trade.print]? = some noted ∧ noted.price = trade.price ∧
    noted.timestamp = trade.timestamp
  once : ∀ print, usedOf print state.deltas + heldOf print state.recentTrades ≤ notedSize state.tape print
  total : tradedSize state.deltas + heldSize state.recentTrades ≤ heldSize state.tape
  sources : ∀ row ∈ state.deltas, row.tradeSize.getD 0 = takenSize row.takings ∧ ∀ taking ∈ row.takings, 0 ≤ taking.2 ∧
    ∃ noted, state.tape[taking.1]? = some noted ∧ |noted.price - row.price| < 1 / 10000 ∧ row.observedAt - tradeMatchWindowSeconds ≤ noted.timestamp

theorem sound_start : Sound {} where
  nonneg _ member := nomatch member
  stored _ member := nomatch member
  once _ := le_of_eq (add_zero _)
  total := le_of_eq (add_zero _)
  sources _ member := nomatch member

theorem heldOf_nonneg {trades : List RecentTrade} (nonneg : ∀ trade ∈ trades, 0 ≤ trade.size) (print : ℕ) : 0 ≤ heldOf print trades :=
  heldOf_sublist (List.nil_sublist trades) nonneg

theorem heldSize_nonneg {trades : List RecentTrade} (nonneg : ∀ trade ∈ trades, 0 ≤ trade.size) : 0 ≤ heldSize trades :=
  heldSize_sublist (List.nil_sublist trades) nonneg

theorem Sound.tapeKept {state : TokenState} (sound : Sound state) : TapeKept state where
  sources := sound.sources
  once print := (le_add_of_nonneg_right (heldOf_nonneg sound.nonneg print)).trans (sound.once print)
  total := (le_add_of_nonneg_right (heldSize_nonneg sound.nonneg)).trans sound.total

section Trades
variable {state : TokenState} {upper : String → String}

theorem notedSize_append (tape : List RecentTrade) (trade : RecentTrade) (print : ℕ) :
    notedSize (tape ++ [trade]) print = notedSize tape print + if tape.length = print then trade.size else 0 := by
  unfold notedSize
  rcases lt_trichotomy print tape.length with before | same | beyond
  · rw [List.getElem?_append_left before, if_neg (by omega), add_zero]
  · rw [same, List.getElem?_concat_length, if_pos rfl, List.getElem?_eq_none le_rfl]
    exact (zero_add _).symm
  · rw [if_neg (by omega), List.getElem?_eq_none (by rw [List.length_append, List.length_singleton]; omega), List.getElem?_eq_none (by omega)]
    exact (add_zero _).symm

theorem getElem?_append_some {tape : List RecentTrade} {print : ℕ} {noted : RecentTrade} (found : tape[print]? = some noted) (trade : RecentTrade) :
    (tape ++ [trade])[print]? = some noted := by
  have ⟨bound, _⟩ := List.getElem?_eq_some_iff.1 found
  rw [List.getElem?_append_left bound, found]

theorem heldOf_append (print : ℕ) (trades : List RecentTrade) (trade : RecentTrade) :
    heldOf print (trades ++ [trade]) = heldOf print trades + if trade.print = print then trade.size else 0 := by
  rw [heldOf, List.map_append, List.sum_append, heldOf]
  exact congrArg (_ + ·) (add_zero _)

theorem heldSize_append (trades : List RecentTrade) (trade : RecentTrade) : heldSize (trades ++ [trade]) = heldSize trades + trade.size := by
  rw [heldSize, List.map_append, List.sum_append, heldSize]
  exact congrArg (_ + ·) (add_zero _)

theorem Sound.recordTrade (sound : Sound state) (call : TradeCall) : Sound (recordTrade upper state call) := by
  unfold Capture.recordTrade
  by_cases unusable : call.price ≤ 0 ∨ call.size ≤ 0
  · rw [if_pos unusable]
    exact sound
  · rw [if_neg unusable]
    have ⟨_, sized⟩ := not_or.1 unusable
    have positive : 0 ≤ call.size := (not_le.1 sized).le
    dsimp only
    generalize trade_eq : (⟨state.tape.length, call.price, call.size, sideOf upper call.side, call.now⟩ : RecentTrade) = trade
    have print : trade.print = state.tape.length := by rw [← trade_eq]
    have size_nonneg : 0 ≤ trade.size := by
      rw [← trade_eq]
      exact positive
    have all_nonneg : ∀ held ∈ state.recentTrades ++ [trade], 0 ≤ held.size := by
      intro held member
      rcases List.mem_append.1 member with before | now
      · exact sound.nonneg held before
      · rw [List.mem_singleton.1 now]
        exact size_nonneg
    have kept : (capped (state.recentTrades ++ [trade])).Sublist (state.recentTrades ++ [trade]) := List.drop_sublist _ _
    refine { nonneg := fun held member => all_nonneg held (kept.subset member), stored := fun held member => ?_, once := fun other => ?_,
             total := ?_, sources := fun row member => ?_ }
    · rcases List.mem_append.1 (kept.subset member) with before | now
      · have ⟨noted, found, same⟩ := sound.stored held before
        exact ⟨noted, getElem?_append_some found trade, same⟩
      · rw [List.mem_singleton.1 now, print]
        exact ⟨trade, List.getElem?_concat_length .., rfl, rfl⟩
    · have held := @heldOf_sublist other _ _ kept all_nonneg
      have before := sound.once other
      rw [heldOf_append, print] at held
      dsimp only
      rw [notedSize_append]
      linarith
    · have held := heldSize_sublist kept all_nonneg
      have before := sound.total
      rw [heldSize_append] at held
      dsimp only
      rw [heldSize_append]
      linarith
    · have ⟨sum, prints⟩ := sound.sources row member
      refine ⟨sum, fun taking stored => ?_⟩
      have ⟨nonneg, noted, found, rest⟩ := prints taking stored
      exact ⟨nonneg, noted, getElem?_append_some found trade, rest⟩

end Trades

section Books
variable {state : TokenState} {call : BookCall}

def recentFor (state : TokenState) (call : BookCall) : List RecentTrade :=
  state.recentTrades.filter fun trade => call.ingest - tradeMatchWindowSeconds ≤ trade.timestamp

theorem deltas_draws (nonneg : ∀ trade ∈ state.recentTrades, 0 ≤ trade.size) :
    Draws call.ingest (recentFor state call) (call.deltas state).1 (call.deltas state).2 := by
  have kept : ∀ trade ∈ recentFor state call, 0 ≤ trade.size := fun trade member => nonneg trade (List.mem_of_mem_filter member)
  unfold BookCall.deltas
  dsimp only
  split
  · exact draws_nothing kept
  · have bids := @diffAndEmit_draws call.ingest call.spreadBps .bid call.newBids state.bids.entries _ kept
    exact bids.append (diffAndEmit_draws fun trade member => (bids.leaves trade member).1)

theorem deltas_accounted (nonneg : ∀ trade ∈ state.recentTrades, 0 ≤ trade.size) {side : BookSide} {level : ℚ × ℚ}
    (member : level ∈ (state.levels side).entries) (lost : minDeltaSize ≤ level.2 - ((call.newLevels side).get? level.1).getD 0) :
    Accounted (call.deltas state).1 side level.1 (level.2 - ((call.newLevels side).get? level.1).getD 0) := by
  have kept : ∀ trade ∈ recentFor state call, 0 ≤ trade.size := fun trade member => nonneg trade (List.mem_of_mem_filter member)
  have bids := @diffAndEmit_draws call.ingest call.spreadBps .bid call.newBids state.bids.entries _ kept
  unfold BookCall.deltas
  dsimp only
  split
  · next empty =>
    cases side with
    | bid => exact absurd (show level ∈ [] from empty.1 ▸ member) List.not_mem_nil
    | ask => exact absurd (show level ∈ [] from empty.2 ▸ member) List.not_mem_nil
  · cases side with
    | bid =>
      refine (diffAndEmit_accounted state.bids.nodup kept member lost).append_left fun row held same => ?_
      cases (mem_diffAndEmit held).1.symm.trans same
    | ask =>
      refine (diffAndEmit_accounted state.asks.nodup (fun trade held => (bids.leaves trade held).1) member lost).append_right fun row held same => ?_
      cases (mem_diffAndEmit held).1.symm.trans same

theorem Sound.recordBook (sound : Sound state) (call : BookCall) : Sound (recordBook state call) := by
  unfold Capture.recordBook
  cases call.validate state.lastSequence with
  | error reason => exact sound
  | ok lastSequence =>
    have draws := @deltas_draws state call sound.nonneg
    have kept : (recentFor state call).Sublist state.recentTrades := List.filter_sublist
    have noted_of : ∀ {print : ℕ} {price timestamp : ℚ}, Stems (recentFor state call) print price timestamp →
        ∃ noted, state.tape[print]? = some noted ∧ noted.price = price ∧ noted.timestamp = timestamp ∧
          call.ingest - tradeMatchWindowSeconds ≤ noted.timestamp := by
      rintro print price timestamp ⟨trade, member, same_print, same_price, same_timestamp⟩
      have ⟨held, recent⟩ := List.mem_filter.1 member
      have ⟨noted, found, noted_price, noted_timestamp⟩ := sound.stored trade held
      exact ⟨noted, same_print ▸ found, noted_price.trans same_price, noted_timestamp.trans same_timestamp,
        noted_timestamp ▸ of_decide_eq_true recent⟩
    refine { nonneg := fun trade member => (draws.leaves trade member).1, stored := fun trade member => ?_, once := fun print => ?_, total := ?_,
             sources := fun row member => ?_ }
    · have ⟨noted, found, price, timestamp, _⟩ := noted_of (draws.leaves trade member).2
      exact ⟨noted, found, price, timestamp⟩
    · change usedOf print (state.deltas ++ (call.deltas state).1) + heldOf print (call.deltas state).2 ≤ notedSize state.tape print
      have held := @heldOf_sublist print _ _ kept sound.nonneg
      have before := sound.once print
      rw [usedOf_append, add_assoc, draws.used]
      linarith
    · change tradedSize (state.deltas ++ (call.deltas state).1) + heldSize (call.deltas state).2 ≤ heldSize state.tape
      have held := heldSize_sublist kept sound.nonneg
      have before := sound.total
      rw [tradedSize_append, add_assoc, draws.traded]
      linarith
    · rcases List.mem_append.1 member with before | now
      · exact sound.sources row before
      · have ⟨observed, taken⟩ := draws.taken row now
        refine ⟨taken.sum, fun taking stored => ?_⟩
        have ⟨nonneg, price, timestamp, stems, near⟩ := taken.prints taking stored
        have ⟨noted, found, noted_price, _, recent⟩ := noted_of stems
        exact ⟨nonneg, noted, found, by rw [noted_price]; exact near, by rw [observed]; exact recent⟩

end Books

section Runs
variable {upper : String → String}

theorem Sound.step {state : TokenState} (sound : Sound state) (call : Call) : Sound (state.step upper call) := by
  cases call with
  | trade call => exact sound.recordTrade call
  | book call => exact sound.recordBook call

def after (upper : String → String) (calls : List Call) : TokenState := Runs.run (TokenState.step upper) {} calls

theorem sound_after (calls : List Call) : Sound (after upper calls) :=
  Runs.invariant_all (fun _ call sound => sound.step call) sound_start calls

def Accepted (state : TokenState) (call : BookCall) : Prop := ∃ lastSequence, call.validate state.lastSequence = .ok lastSequence

def Quiet (upper : String → String) : TokenState → List Call → Prop :=
  Runs.Meets (TokenState.step upper) fun state call => ∀ book, call = .book book → ¬ Accepted state book

theorem step_of_not_accepted {state : TokenState} {call : BookCall} (rejected : ¬ Accepted state call) : state.step upper (.book call) = state := by
  change recordBook state call = state
  unfold recordBook
  cases outcome : call.validate state.lastSequence with
  | error reason => rfl
  | ok lastSequence => exact absurd ⟨lastSequence, outcome⟩ rejected

theorem levels_recordTrade (state : TokenState) (call : TradeCall) (side : BookSide) :
    (recordTrade upper state call).levels side = state.levels side := by
  unfold recordTrade
  split <;> cases side <;> rfl

theorem levels_quiet {state : TokenState} {calls : List Call} (quiet : Quiet upper state calls) (side : BookSide) :
    (Runs.run (TokenState.step upper) state calls).levels side = state.levels side := by
  induction calls generalizing state with
  | nil => rfl
  | cons call calls ih =>
    have ⟨now, later⟩ := (Runs.meets_cons _ _ _ _ _).1 quiet
    rw [Runs.run_cons, ih later]
    cases call with
    | trade call => exact levels_recordTrade state call side
    | book call => rw [step_of_not_accepted (now call rfl)]

theorem step_of_accepted {state : TokenState} (sound : Sound state) {call : BookCall} (accepted : Accepted state call) :
    (∀ side, (state.step upper (.book call)).levels side = call.newLevels side) ∧
      ∃ emitted, (state.step upper (.book call)).deltas = state.deltas ++ emitted ∧
        ∀ side, ∀ level ∈ (state.levels side).entries, minDeltaSize ≤ level.2 - ((call.newLevels side).get? level.1).getD 0 →
          Accounted emitted side level.1 (level.2 - ((call.newLevels side).get? level.1).getD 0) := by
  have ⟨lastSequence, outcome⟩ := accepted
  have stepped : state.step upper (.book call) = recordBook state call := rfl
  rw [stepped]
  unfold recordBook
  rw [outcome]
  refine ⟨fun side => ?_, (call.deltas state).1, rfl, fun side level member lost => deltas_accounted sound.nonneg member lost⟩
  cases side <;> rfl

end Runs

structure TokenKept (upper : String → String) (calls : List Call) : Prop where
  tape : TapeKept (after upper calls)
  rejected : ∀ before book rest, calls = before ++ .book book :: rest → ¬ Accepted (after upper before) book →
    (after upper before).step upper (.book book) = after upper before
  levels : ∀ before first middle second rest, calls = before ++ .book first :: (middle ++ .book second :: rest) →
    Accepted (after upper before) first →
    Quiet upper (after upper (before ++ [.book first])) middle → Accepted (after upper (before ++ .book first :: middle)) second →
    ∃ emitted, (after upper (before ++ .book first :: (middle ++ [.book second]))).deltas =
        (after upper (before ++ .book first :: middle)).deltas ++ emitted ∧
      ∀ side, ∀ level ∈ (first.newLevels side).entries, minDeltaSize ≤ level.2 - ((second.newLevels side).get? level.1).getD 0 →
        Accounted emitted side level.1 (level.2 - ((second.newLevels side).get? level.1).getD 0)

theorem tokenKept (upper : String → String) (calls : List Call) : TokenKept upper calls where
  tape := (sound_after calls).tapeKept
  rejected _ _ _ _ rejected := step_of_not_accepted rejected
  levels before first middle second _ _ accepted quiet accepted_again := by
    have up_to : after upper (before ++ .book first :: middle) = Runs.run (TokenState.step upper) (after upper (before ++ [.book first])) middle := by
      rw [List.append_cons, after, Runs.run_append, ← after]
    have at_first : after upper (before ++ [.book first]) = (after upper before).step upper (.book first) := by
      rw [after, Runs.run_append]
      rfl
    have at_second : after upper (before ++ .book first :: (middle ++ [.book second])) =
        (after upper (before ++ .book first :: middle)).step upper (.book second) := by
      rw [← List.cons_append, ← List.append_assoc, after, Runs.run_append]
      rfl
    have held : ∀ side, (after upper (before ++ .book first :: middle)).levels side = first.newLevels side := by
      intro side
      rw [up_to, levels_quiet quiet, at_first]
      exact (step_of_accepted (sound_after before) accepted).1 side
    have ⟨_, emitted, deltas, accounted⟩ := @step_of_accepted upper _ (sound_after (before ++ .book first :: middle)) second accepted_again
    refine ⟨emitted, at_second ▸ deltas, fun side level member lost => accounted side level ?_ lost⟩
    rw [held]
    exact member

def callsOf (clean : String → String) (token : String) (calls : List TokenCall) : List Call :=
  (calls.filter fun given => clean given.tokenId = token ∧ token ≠ "").map TokenCall.call

theorem run_token (clean upper : String → String) (token : String) (calls : List TokenCall) (states : String → TokenState) :
    Runs.run (step clean upper) states calls token = Runs.run (TokenState.step upper) (states token) (callsOf clean token calls) := by
  induction calls generalizing states with
  | nil => rfl
  | cons given calls ih =>
    rw [Runs.run_cons, ih]
    unfold callsOf step
    by_cases unnamed : clean given.tokenId = ""
    · rw [if_pos unnamed, List.filter_cons_of_neg]
      rw [decide_eq_true_iff]
      exact fun own => own.2 (own.1.symm.trans unnamed)
    · rw [if_neg unnamed]
      by_cases own : clean given.tokenId = token
      · rw [List.filter_cons_of_pos, List.map_cons, Runs.run_cons, ← own, Function.update_self]
        rw [decide_eq_true_iff]
        exact ⟨own, own ▸ unnamed⟩
      · rw [List.filter_cons_of_neg, Function.update_of_ne (Ne.symm own)]
        rw [decide_eq_true_iff]
        exact fun same => own same.1

/-- In every run over any tokens, the calls of each token account for its levels and use no print twice. -/
theorem capture_accounted (clean upper : String → String) (calls : List TokenCall) (token : String) :
    Runs.run (step clean upper) (fun _ => {}) calls token = after upper (callsOf clean token calls) ∧
      TokenKept upper (callsOf clean token calls) :=
  ⟨run_token clean upper token calls _, tokenKept upper _⟩

end Callisto.MarketData.Capture
