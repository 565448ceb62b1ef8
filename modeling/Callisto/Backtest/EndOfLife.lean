import Callisto.Backtest.EngineSteps
import Callisto.Backtest.FillTimes
import Callisto.Backtest.PositionLives

/-! Sweeps: the closing of several positions at once, at their settlements or at the end of a run. -/

namespace Callisto.Backtest

open Callisto.Library Callisto.Library.Runs

namespace Portfolio

/-- Closes an entry if it is chosen, at the price, time and kind that come with it. -/
def closeChosen (chosen : PositionKey × Position → Option (ℚ × Instant × Bool)) (book : Portfolio) (entry : PositionKey × Position) : Portfolio :=
  match chosen entry with
  | none => book
  | some close => book.closePositionAt entry.1 entry.2 close.1 close.2.1 close.2.2

/-- Some entries of a portfolio were closed, those that are chosen, and all else is as it was. -/
structure ClosesTo (chosen : PositionKey × Position → Option (ℚ × Instant × Bool)) (entries : List (PositionKey × Position))
    (book next : Portfolio) : Prop where
  config : next.config = book.config
  history : next.equityHistory = book.equityHistory
  named : ∀ name, next.named name = book.named name
  closed : next.closedPositions = book.closedPositions ++
    entries.filterMap fun entry => (chosen entry).map fun close => closedOut book.config entry.2 close.1 close.2.1
  left : ∀ entry ∈ next.positions.entries, entry ∈ book.positions.entries ∧ ∀ other ∈ entries, chosen other ≠ none → entry.1 ≠ other.1
  kept : ∀ entry ∈ book.positions.entries, (∀ other ∈ entries, chosen other ≠ none → entry.1 ≠ other.1) → entry ∈ next.positions.entries

theorem closesTo_foldl {chosen : PositionKey × Position → Option (ℚ × Instant × Bool)} {entries : List (PositionKey × Position)} {book : Portfolio}
    (distinct : (entries.map Prod.fst).Nodup) (held : ∀ entry ∈ entries, book.positions.get? entry.1 = some entry.2)
    (positive : ∀ entry ∈ entries, chosen entry ≠ none → 0 < entry.2.size) :
    ClosesTo chosen entries book (entries.foldl (closeChosen chosen) book) := by
  induction entries generalizing book with
  | nil =>
    exact ⟨rfl, rfl, fun _ => rfl, (List.append_nil _).symm, fun _ member => ⟨member, fun _ none_ => nomatch none_⟩, fun _ member _ => member⟩
  | cons entry rest ih =>
    have ⟨fresh, distinctRest⟩ := List.nodup_cons.mp distinct
    have found := held entry List.mem_cons_self
    have later := fun other (member : other ∈ rest) => held other (List.mem_cons_of_mem entry member)
    have positiveRest := fun other (member : other ∈ rest) => positive other (List.mem_cons_of_mem entry member)
    rw [List.foldl_cons]
    cases choice : chosen entry with
    | none =>
      have same : closeChosen chosen book entry = book := by
        unfold closeChosen
        rw [choice]
      have tail := ih distinctRest later positiveRest
      rw [same]
      refine ⟨tail.config, tail.history, tail.named, ?_, fun other member => ⟨(tail.left other member).1, fun named listed picked => ?_⟩,
        fun other member apart => ?_⟩
      · rw [tail.closed, List.filterMap_cons_none (by rw [choice]; rfl)]
      · cases List.mem_cons.mp listed with
        | inl here => exact absurd (here ▸ choice) picked
        | inr there => exact (tail.left other member).2 named there picked
      · exact tail.kept other member fun named listed picked => apart named (List.mem_cons_of_mem entry listed) picked
    | some close =>
      have large := positive entry List.mem_cons_self (by rw [choice]; exact Option.some_ne_none close)
      have closes : closeChosen chosen book entry = book.closePositionAt entry.1 entry.2 close.1 close.2.1 close.2.2 := by
        unfold closeChosen
        rw [choice]
      have gone : (closeChosen chosen book entry).positions = book.positions.erase entry.1 := by
        rw [closes]
        rfl
      have apartRest : ∀ other ∈ rest, entry.1 ≠ other.1 := by
        intro other member same
        exact fresh (List.mem_map.mpr ⟨other, member, same.symm⟩)
      have heldRest : ∀ other ∈ rest, (closeChosen chosen book entry).positions.get? other.1 = some other.2 := by
        intro other member
        rw [gone, Dict.get?_erase, if_neg (apartRest other member)]
        exact later other member
      have tail : ClosesTo chosen rest (closeChosen chosen book entry) (rest.foldl (closeChosen chosen) (closeChosen chosen book entry)) :=
        ih distinctRest heldRest positiveRest
      have config : (closeChosen chosen book entry).config = book.config := by
        rw [closes]
        rfl
      refine ⟨tail.config.trans config, tail.history.trans (by rw [closes]; rfl), fun name => ?_, ?_, fun other member => ?_,
        fun other member apart => ?_⟩
      · rw [tail.named, closes, named_closePositionAt found large]
      · rw [tail.closed, List.filterMap_cons_some (by rw [choice]; rfl), config, closes, closedPositions_closePositionAt large, List.append_assoc]
        rfl
      · have ⟨before, differs⟩ := tail.left other member
        rw [gone] at before
        have ⟨old, apart⟩ := Dict.mem_erase before
        refine ⟨old, fun named listed picked => ?_⟩
        cases List.mem_cons.mp listed with
        | inl here =>
          rw [here]
          exact apart
        | inr there => exact differs named there picked
      · have apartHere := apart entry List.mem_cons_self (by rw [choice]; exact Option.some_ne_none close)
        refine tail.kept other ?_ fun named listed picked => apart named (List.mem_cons_of_mem entry listed) picked
        rw [gone]
        refine Dict.mem_of_find ?_
        show (book.positions.erase entry.1).get? other.1 = some other.2
        rw [Dict.get?_erase, if_neg apartHere.symm]
        exact Dict.get?_of_mem member

end Portfolio

namespace BacktestEngine

variable {σ π ρ : Type} {config : BacktestConfig σ π ρ} {engine next last : BacktestEngine σ ρ} {snapshot : BookSnapshot} {now : Instant}

/-! ## The sweep of the settlements -/

def Settles (config : BacktestConfig σ π ρ) (tokenId : String) (price : ℚ) (due : Instant) : Prop :=
  ∃ settlement, config.settlements.get? tokenId = some settlement ∧ settlement.settlePrice = some price ∧ settlement.resolutionTime = some due

def settleChoice (tokenId : String) (price : ℚ) (moment : Instant) (entry : PositionKey × Position) : Option (ℚ × Instant × Bool) :=
  if entry.1.1 ≠ tokenId ∨ entry.2.size ≤ dust then none else some (price, moment, true)

theorem settleChoice_of_ne_none {tokenId : String} {price : ℚ} {moment : Instant} {entry : PositionKey × Position}
    (picked : settleChoice tokenId price moment entry ≠ none) : entry.1.1 = tokenId ∧ dust < entry.2.size := by
  unfold settleChoice at picked
  by_cases passed : entry.1.1 ≠ tokenId ∨ entry.2.size ≤ dust
  · rw [if_pos passed] at picked
    contradiction
  · rw [not_or, not_not, not_le] at passed
    exact passed

theorem settleChoice_of_held {tokenId : String} {price : ℚ} {moment : Instant} {entry : PositionKey × Position} (own : entry.1.1 = tokenId)
    (large : dust < entry.2.size) : settleChoice tokenId price moment entry = some (price, moment, true) := by
  unfold settleChoice
  rw [if_neg]
  rw [not_or, not_not, not_le]
  exact ⟨own, large⟩

theorem settlePosition_portfolio (tokenId : String) (price : ℚ) (moment : Instant) (engine : BacktestEngine σ ρ) (entry : PositionKey × Position) :
    (settlePosition tokenId price moment engine entry).portfolio =
      Portfolio.closeChosen (settleChoice tokenId price moment) engine.portfolio entry := by
  unfold settlePosition Portfolio.closeChosen settleChoice
  by_cases passed : entry.1.1 ≠ tokenId ∨ entry.2.size ≤ dust
  · rw [if_pos passed, if_pos passed]
  · rw [if_neg passed, if_neg passed]

theorem settlePositions_portfolio (tokenId : String) (price : ℚ) (moment : Instant) (entries : List (PositionKey × Position))
    (engine : BacktestEngine σ ρ) : (entries.foldl (settlePosition tokenId price moment) engine).portfolio =
      entries.foldl (Portfolio.closeChosen (settleChoice tokenId price moment)) engine.portfolio := by
  induction entries generalizing engine with
  | nil => rfl
  | cons entry rest ih => rw [List.foldl_cons, List.foldl_cons, ih, settlePosition_portfolio]

/-- What a sweep has done: it has closed positions of tokens on the schedule at their settlements, and nothing else. -/
structure Sweeps (config : BacktestConfig σ π ρ) (schedule : List (Instant × String)) (now : Instant) (engine next : BacktestEngine σ ρ) : Prop where
  matching : next.matching = engine.matching
  terms : next.portfolio.config = engine.portfolio.config
  history : next.portfolio.equityHistory = engine.portfolio.equityHistory
  named : ∀ name, next.portfolio.named name = engine.portfolio.named name
  left : ∀ entry ∈ next.portfolio.positions.entries, entry ∈ engine.portfolio.positions.entries
  closed : ∃ more, next.portfolio.closedPositions = engine.portfolio.closedPositions ++ more ∧ ∀ pos ∈ more,
    ∃ entry ∈ engine.portfolio.positions.entries, ∃ price due, (due, entry.1.1) ∈ schedule ∧
      pos = Portfolio.closedOut engine.portfolio.config entry.2 price due
  settled : ∀ entry ∈ engine.portfolio.positions.entries, dust < entry.2.size → ∀ price due, Settles config entry.1.1 price due →
    (due, entry.1.1) ∈ schedule → due ≤ now → Portfolio.closedOut engine.portfolio.config entry.2 price due ∈ next.portfolio.closedPositions

theorem closesTo_settlePositions (tokenId : String) (price : ℚ) (moment : Instant) (engine : BacktestEngine σ ρ) :
    Portfolio.ClosesTo (settleChoice tokenId price moment) engine.portfolio.positions.entries engine.portfolio
      (engine.portfolio.positions.entries.foldl (settlePosition tokenId price moment) engine).portfolio := by
  rw [settlePositions_portfolio]
  refine Portfolio.closesTo_foldl engine.portfolio.positions.nodup (fun entry member => Dict.get?_of_mem member) fun entry _ picked => ?_
  exact Position.dust_pos.trans (settleChoice_of_ne_none picked).2

theorem sweeps_refl (config : BacktestConfig σ π ρ) (engine : BacktestEngine σ ρ) (schedule : List (Instant × String))
    (ahead : ∀ coming ∈ schedule, now < coming.1) : Sweeps config schedule now engine engine := by
  refine ⟨rfl, rfl, rfl, fun _ => rfl, fun _ member => member, ⟨[], (List.append_nil _).symm, fun _ none_ => nomatch none_⟩, ?_⟩
  intro entry _ _ price due _ listed early
  exact absurd early (not_le.mpr (ahead _ listed))

theorem settleToken_closes (now : Instant) {due : Instant} {tokenId : String}
    (listed : (due, tokenId) ∈ config.resolutionSchedule) (engine : BacktestEngine σ ρ) :
    ∃ price, Settles config tokenId price due ∧ Portfolio.ClosesTo (settleChoice tokenId price due) engine.portfolio.positions.entries
      engine.portfolio (settleToken config now engine tokenId).portfolio := by
  have ⟨settlement, price, known, timed, priced⟩ := mem_resolutionSchedule.mp listed
  refine ⟨price, ⟨settlement, known, priced, timed⟩, ?_⟩
  have closes := closesTo_settlePositions tokenId price due engine
  unfold settleToken
  simp only [known, priced, timed, Option.getD_some]
  exact closes

theorem sweeps_settleSchedule {schedule : List (Instant × String)} (sorted : schedule.Pairwise fun first second => first.1 ≤ second.1)
    (listed : ∀ coming ∈ schedule, coming ∈ config.resolutionSchedule) (engine : BacktestEngine σ ρ) :
    Sweeps config schedule now engine (settleSchedule config now schedule engine) := by
  induction schedule generalizing engine with
  | nil => exact ⟨rfl, rfl, rfl, fun _ => rfl, fun _ member => member, ⟨[], (List.append_nil _).symm, fun _ none_ => absurd none_ List.not_mem_nil⟩,
      fun _ _ _ _ _ _ none_ => absurd none_ List.not_mem_nil⟩
  | cons head rest ih =>
    obtain ⟨first, sortedRest⟩ := List.pairwise_cons.mp sorted
    unfold settleSchedule
    by_cases ready : head.1 ≤ now
    · rw [if_pos ready]
      obtain ⟨price, settles, closes⟩ := settleToken_closes now (listed head List.mem_cons_self) engine
      have tail := ih sortedRest (fun coming member => listed coming (List.mem_cons_of_mem head member)) (settleToken config now engine head.2)
      have fewer : Fewer engine (settleToken config now engine head.2) := settleToken_fewer config now head.2
      refine ⟨tail.matching.trans fewer.matching, tail.terms.trans closes.config, tail.history.trans closes.history,
        fun name => (tail.named name).trans (closes.named name), fun entry member => fewer.held entry (tail.left entry member), ?_, ?_⟩
      · obtain ⟨more, appended, each⟩ := tail.closed
        rw [closes.closed, List.append_assoc] at appended
        refine ⟨_, appended, fun pos member => ?_⟩
        cases List.mem_append.mp member with
        | inl here =>
          obtain ⟨entry, entryMember, chosen⟩ := List.mem_filterMap.mp here
          obtain ⟨close, choice, same⟩ := Option.map_eq_some_iff.mp chosen
          have picked : settleChoice head.2 price head.1 entry ≠ none := by
            rw [choice]
            exact Option.some_ne_none close
          obtain ⟨own, large⟩ := settleChoice_of_ne_none picked
          rw [settleChoice_of_held own large] at choice
          rw [← Option.some.inj choice] at same
          refine ⟨entry, entryMember, price, head.1, ?_, same.symm⟩
          rw [own]
          exact List.mem_cons_self
        | inr there =>
          obtain ⟨entry, entryMember, value, due, coming, same⟩ := each pos there
          rw [closes.config] at same
          exact ⟨entry, fewer.held entry entryMember, value, due, List.mem_cons_of_mem head coming, same⟩
      · intro entry member large value due known coming early
        by_cases own : entry.1.1 = head.2
        · obtain ⟨more, appended, _⟩ := tail.closed
          obtain ⟨settlement, found, priced, timed⟩ := settles
          obtain ⟨other, foundOther, pricedOther, timedOther⟩ := known
          rw [own, found] at foundOther
          rw [← Option.some.inj foundOther] at pricedOther timedOther
          have samePrice : price = value := Option.some.inj (priced.symm.trans pricedOther)
          have sameDue : head.1 = due := Option.some.inj (timed.symm.trans timedOther)
          rw [appended, closes.closed, ← samePrice, ← sameDue]
          apply List.mem_append_left
          apply List.mem_append_right
          exact List.mem_filterMap.mpr ⟨entry, member, by rw [settleChoice_of_held own large]; rfl⟩
        · have kept := closes.kept entry member fun other _ picked same => own (by rw [same]; exact (settleChoice_of_ne_none picked).1)
          have further : (due, entry.1.1) ∈ rest := by
            cases List.mem_cons.mp coming with
            | inl same => exact absurd (congrArg Prod.snd same) own
            | inr there => exact there
          have closedThere := tail.settled entry kept large value due known further early
          rwa [closes.config] at closedThere
    · rw [if_neg ready]
      have ahead : ∀ coming ∈ head :: rest, now < coming.1 := by
        intro coming member
        cases List.mem_cons.mp member with
        | inl here =>
          rw [here]
          exact not_le.mp ready
        | inr there => exact (not_le.mp ready).trans_le (first coming there)
      have still := sweeps_refl config engine (head :: rest) ahead
      exact ⟨still.matching, still.terms, still.history, still.named, still.left, still.closed, still.settled⟩

end BacktestEngine

end Callisto.Backtest
