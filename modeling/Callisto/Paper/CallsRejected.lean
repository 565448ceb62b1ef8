import Callisto.Paper.CallWrites

/-! Intents that an ended call left behind: the next call of the pair rejects them, and nothing is ever
bought or sold for them. -/

namespace Callisto.Paper

open Callisto.Library Callisto.Library.Runs

/-- A decision that rejects, on an account that holds what it held before. -/
def Ledger.Rejects (ledger next : Ledger) (decisionId : String) (row : Decision) : Prop :=
  next.decisions.get? decisionId = some row ∧ row.status = .rejected ∧ row.filledQuantity = 0 ∧
    next.holdings = ledger.holdings

namespace Ledger

variable {ledger next : Ledger} {names : RowNames} {accountId decisionId positionId requestHash reason : String}
  {request : DecisionRequest} {terms : OrderTerms} {resolved : ResolvedOpportunity} {now : Instant} {row : Decision}

theorem commitPrepared_rejected (absent : ledger.decisions.get? decisionId = none) (names : RowNames)
    (accountId requestHash reason : String) (request : DecisionRequest) (resolved : ResolvedOpportunity)
    (now : Instant) : ∃ next row,
      ledger.commitPrepared names accountId decisionId requestHash request resolved (.rejected reason) now =
        .ok (next, row) ∧ ledger.Rejects next decisionId row ∧ row.reason = reason := by
  have settled : settleBuy ledger.account request (.rejected reason) now =
      .unfilled .rejected reason request.quantity request.quantity_nonneg := by
    simp [settleBuy, Settlement.checked, PreparedDecision.quote, Settlement.ofPrepared, Settlement.unfilled,
      DecisionStatus.IsSimulated]
  have orderless : orderTerms request
      (Settlement.unfilled .rejected reason request.quantity request.quantity_nonneg) = none := by
    cases request with
    | pass => rfl
    | execute terms timeInForce => cases timeInForce <;> simp [orderTerms, Settlement.unfilled, DecisionStatus.IsSimulated]
  have unreserved : reservation request
      (Settlement.unfilled .rejected reason request.quantity request.quantity_nonneg) = 0 := by
    simp [reservation, orderless]
  unfold commitPrepared
  split
  · rename_i existing found
    rw [found] at absent
    cases absent
  · simp only [settled, withPosition, withOrder, orderless, bind, Except.bind]
    rw [dif_neg (by simp [Settlement.unfilled])]
    refine ⟨_, _, rfl, ⟨Dict.get?_add_self _ _ _ absent, rfl, rfl, ?_⟩, rfl⟩
    simp only [holdings, unreserved, add_zero]
    simp [buyRow, Settlement.unfilled]

theorem commitExit_rejected (absent : ledger.decisions.get? decisionId = none) (costed : ledger.Costed)
    (held : (ledger.positions.get? positionId).isSome) (requestHash reason : String) (terms : OrderTerms)
    (resolved : ResolvedOpportunity) (now : Instant) : ∃ next row,
      ledger.commitExit decisionId positionId requestHash terms resolved (.rejected reason) now = .ok (next, row) ∧
        ledger.Rejects next decisionId row := by
  obtain ⟨position, found⟩ := Option.isSome_iff_exists.1 held
  have covered := ((costed.positions positionId position found).sold _ (List.prefix_refl _)).2
  have settled : ∃ why, settleSell position (ledger.soldQuantity positionId) terms (.rejected reason) now =
      .unfilled .rejected why terms.quantity terms.positive.le := by
    unfold settleSell
    split_ifs
    · exact ⟨_, rfl⟩
    · exact ⟨reason, rfl⟩
  obtain ⟨why, settled⟩ := settled
  unfold commitExit
  split
  · rename_i existing known
    rw [known] at absent
    cases absent
  · have within : ¬ position.entryQuantity < ledger.soldQuantity positionId := not_lt.2 covered
    simp only [found, settled, Settlement.unfilled, add_zero, if_neg within]
    refine ⟨_, _, rfl, Dict.get?_add_self _ _ _ absent, rfl, rfl, ?_⟩
    simp [holdings, sellRow]

end Ledger

theorem Call.commit_rejected {env : Environment} {call : Call} {ledger : Ledger}
    (undecided : ledger.decisions.get? call.decisionId = none) (costed : ledger.Costed)
    (held : ∀ accountId decisionId positionId terms, call = .recordExit accountId decisionId positionId terms →
      (ledger.positions.get? positionId).isSome)
    (resolved : ResolvedOpportunity) (reason : String) (now : Instant) : ∃ next row,
      call.commit env ledger resolved (.rejected reason) now = .ok (next, row) ∧
        ledger.Rejects next call.decisionId row := by
  cases call with
  | recordDecision accountId decisionId opportunityId revision request =>
    obtain ⟨next, row, committed, rejects, -⟩ := Ledger.commitPrepared_rejected undecided env.names accountId
      (env.requestHash (.recordDecision accountId decisionId opportunityId revision request)) reason request resolved now
    exact ⟨next, row, committed, rejects⟩
  | recordExit accountId decisionId positionId terms =>
    exact Ledger.commitExit_rejected undecided costed (held _ _ _ _ rfl) _ reason terms resolved now

def Resumes (ledger : Ledger) (machine after : Machine) (client : ℕ) : Call → Prop
  | .recordDecision accountId decisionId opportunityId revision request => ∃ next row,
      ledger.Rejects next decisionId row ∧ row.reason = "expired_after_restart" ∧
      after.store = machine.store.set accountId next ∧
      after.calls client = .unlocking (.recordDecision accountId decisionId opportunityId revision request) (.returned row)
  | .recordExit accountId decisionId positionId terms => ∃ resolved,
      after.store = machine.store ∧
      after.calls client = .committing (.recordExit accountId decisionId positionId terms) resolved
        (.rejected "incomplete_exit_intent_rejected_after_restart")

section
variable {env : Environment} {machine : Machine} {ledger : Ledger}

theorem resumes_advance {client : ℕ} {call : Call} {intent : Intent}
    (intending : machine.calls client = .intending call) (held : machine.store.get? call.accountId = some ledger)
    (found : ledger.intents.get? call.decisionId = some intent)
    (undecided : ledger.decisions.get? call.decisionId = none) (hash : intent.requestHash = env.requestHash call)
    (input : Input) : Resumes ledger machine (machine.advance env client input) client call := by
  unfold Machine.advance
  cases call with
  | recordDecision accountId decisionId opportunityId revision request =>
    change machine.store.get? accountId = some ledger at held
    change ledger.intents.get? decisionId = some intent at found
    change ledger.decisions.get? decisionId = none at undecided
    obtain ⟨next, row, committed, rejects, reason⟩ := Ledger.commitPrepared_rejected undecided env.names accountId
      (env.requestHash (.recordDecision accountId decisionId opportunityId revision request)) "expired_after_restart"
      request intent.resolved input.now
    have begun : Call.begin env (.recordDecision accountId decisionId opportunityId revision request) ledger input =
        .ok (next, .finished row) := by
      simp only [Call.begin, Ledger.beginDecision]
      split
      · rename_i existing known
        rw [known] at undecided
        cases undecided
      · split
        · rename_i other known
          rw [found] at known
          cases known
          rw [if_neg (not_not.2 hash)]
          simp only [prepareBuy, committed, Except.map]
        · rename_i absent
          rw [found] at absent
          cases absent
    have acted : (machine.store.onAccount accountId fun ledger =>
        Call.begin env (.recordDecision accountId decisionId opportunityId revision request) ledger input) =
          .ok (machine.store.set accountId next, .finished row) := by
      simp [Store.onAccount, held, begun, Except.map]
    simp only [intending, Call.accountId, acted]
    exact ⟨next, row, rejects, reason, rfl, by simp [Machine.goTo]⟩
  | recordExit accountId decisionId positionId terms =>
    change machine.store.get? accountId = some ledger at held
    change ledger.intents.get? decisionId = some intent at found
    change ledger.decisions.get? decisionId = none at undecided
    have begun : Call.begin env (.recordExit accountId decisionId positionId terms) ledger input =
        .ok (ledger, .resumed intent.resolved) := by
      simp only [Call.begin, Ledger.beginExit]
      split
      · rename_i existing known
        rw [known] at undecided
        cases undecided
      · split
        · rename_i other known
          rw [found] at known
          cases known
          rw [if_neg (not_not.2 hash)]
        · rename_i absent
          rw [found] at absent
          cases absent
    have acted : (machine.store.onAccount accountId fun ledger =>
        Call.begin env (.recordExit accountId decisionId positionId terms) ledger input) =
          .ok (machine.store, .resumed intent.resolved) := by
      simp [Store.onAccount, held, begun, Except.map, Dict.set_of_get? held]
    simp only [intending, Call.accountId, acted]
    exact ⟨intent.resolved, rfl, by simp [Machine.goTo, Call.proceed, Call.prepare, prepareSell]⟩

theorem rejects_advance {client : ℕ} {call : Call} {resolved : ResolvedOpportunity} {reason : String}
    (committing : machine.calls client = .committing call resolved (.rejected reason))
    (held : machine.store.get? call.accountId = some ledger) (costed : ledger.Costed)
    (undecided : ledger.decisions.get? call.decisionId = none)
    (open_ : ∀ accountId decisionId positionId terms, call = .recordExit accountId decisionId positionId terms →
      (ledger.positions.get? positionId).isSome) (input : Input) : ∃ next row,
      ledger.Rejects next call.decisionId row ∧
      (machine.advance env client input).store = machine.store.set call.accountId next ∧
      (machine.advance env client input).calls client = .unlocking call (.returned row) := by
  obtain ⟨next, row, committed, rejects⟩ := @Call.commit_rejected env call ledger undecided costed open_ resolved reason
    input.now
  have acted : (machine.store.onAccount call.accountId fun ledger =>
      call.commit env ledger resolved (.rejected reason) input.now) = .ok (machine.store.set call.accountId next, row) := by
    simp [Store.onAccount, held, committed, Except.map]
  unfold Machine.advance
  simp only [committing, acted]
  exact ⟨next, row, rejects, rfl, by simp [Machine.goTo]⟩

theorem advance_other {client other : ℕ} (different : other ≠ client) (input : Input) :
    (machine.advance env client input).calls other = machine.calls other := by
  unfold Machine.advance
  repeat' split
  all_goals simp [Machine.goTo, Machine.release, different]

theorem proceed_call (call : Call) (resolved : ResolvedOpportunity) (preparation : Preparation) :
    (call.proceed resolved preparation).call? = some call := by
  unfold Call.proceed
  split <;> rfl

theorem advance_call (client : ℕ) (input : Input) :
    ((machine.advance env client input).calls client).call? = (machine.calls client).call? := by
  unfold Machine.advance
  repeat' split
  all_goals simp only [Machine.goTo, Machine.release, Function.update_self, proceed_call]
  all_goals simp_all [Progress.call?]

theorem advance_quiet {client : ℕ} (quiet : (machine.calls client).holding = none) (input : Input) :
    (machine.advance env client input).store = machine.store ∧
      ((machine.advance env client input).calls client).underway = none := by
  unfold Machine.advance
  repeat' split
  all_goals simp_all [Machine.goTo, Machine.release, Progress.holding, Progress.underway]

theorem advance_of_replay {client : ℕ} {call : Call}
    (intending : machine.calls client = .intending call) (held : machine.store.get? call.accountId = some ledger)
    {result : Except ServiceError Decision} {input : Input}
    (begins : call.begin env ledger input = result.map fun decision => (ledger, .finished decision)) :
    (machine.advance env client input).store = machine.store ∧
      (machine.advance env client input).calls client =
        .unlocking call (match result with | .ok decision => .returned decision | .error error => .raised error) := by
  unfold Machine.advance
  cases result with
  | error raised =>
    have acted : (machine.store.onAccount call.accountId fun ledger => call.begin env ledger input) = .error raised := by
      simp [Store.onAccount, held, begins, Except.map]
    simp only [intending, acted]
    exact ⟨rfl, by simp [Machine.goTo]⟩
  | ok decision =>
    have acted : (machine.store.onAccount call.accountId fun ledger => call.begin env ledger input) =
        .ok (machine.store, .finished decision) := by
      simp [Store.onAccount, held, begins, Except.map, Dict.set_of_get? held]
    simp only [intending, acted]
    exact ⟨rfl, by simp [Machine.goTo]⟩

theorem begin_decided {call : Call} {existing : Decision} (input : Input)
    (decided : ledger.decisions.get? call.decisionId = some existing) : call.begin env ledger input =
      (existing.replay (env.requestHash call)).map fun decision => (ledger, .finished decision) := by
  cases call with
  | recordDecision accountId decisionId opportunityId revision request =>
    change ledger.decisions.get? decisionId = some existing at decided
    simp only [Call.begin, Ledger.beginDecision]
    split
    · rename_i other known
      rw [decided] at known
      cases known
      rfl
    · rename_i known
      rw [decided] at known
      cases known
  | recordExit accountId decisionId positionId terms =>
    change ledger.decisions.get? decisionId = some existing at decided
    simp only [Call.begin, Ledger.beginExit, decided]

theorem begin_conflict {call : Call} {intent : Intent} (input : Input)
    (undecided : ledger.decisions.get? call.decisionId = none)
    (found : ledger.intents.get? call.decisionId = some intent) (hash : intent.requestHash ≠ env.requestHash call) :
    call.begin env ledger input = .error .decisionConflict := by
  cases call with
  | recordDecision accountId decisionId opportunityId revision request =>
    change ledger.decisions.get? decisionId = none at undecided
    change ledger.intents.get? decisionId = some intent at found
    simp only [Call.begin, Ledger.beginDecision]
    split
    · rename_i existing known
      rw [undecided] at known
      cases known
    · split
      · rename_i other known
        rw [found] at known
        cases known
        rw [if_pos hash]
      · rename_i absent
        rw [found] at absent
        cases absent
  | recordExit accountId decisionId positionId terms =>
    change ledger.decisions.get? decisionId = none at undecided
    change ledger.intents.get? decisionId = some intent at found
    simp only [Call.begin, Ledger.beginExit, undecided]
    split
    · rename_i other known
      rw [found] at known
      cases known
      rw [if_pos hash]
    · rename_i absent
      rw [found] at absent
      cases absent

end

end Callisto.Paper
