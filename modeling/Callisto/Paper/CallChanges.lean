import Callisto.Paper.Calls
import Callisto.Paper.LedgerBalance
import Callisto.Paper.PositionCost

/-! What the transactions of one call can change in the rows of its account. -/

namespace Callisto.Paper

open Callisto.Library

namespace Ledger

/-- Rows stay: decisions, intents and positions are only added. -/
structure Grows (ledger next : Ledger) : Prop where
  decisions : ∀ id row, ledger.decisions.get? id = some row → next.decisions.get? id = some row
  intents : ∀ id row, ledger.intents.get? id = some row → next.intents.get? id = some row
  positions : ∀ id row, ledger.positions.get? id = some row → next.positions.get? id = some row

theorem grows_refl (ledger : Ledger) : ledger.Grows ledger := ⟨fun _ _ => id, fun _ _ => id, fun _ _ => id⟩

/-- The cash, the reservation, the positions and the orders of an account. -/
def holdings (ledger : Ledger) : ℤ × ℤ × Dict String Position × Dict String Order :=
  (ledger.account.cashBalance, ledger.account.reservedCash, ledger.positions, ledger.orders)

theorem kept_insertIntent {ledger : Ledger} (kept : ledger.Kept) (intents : Dict String Intent) :
    Kept { ledger with intents := intents } :=
  ⟨⟨kept.cash, kept.reserved, kept.reservations, kept.bounded, kept.journal, kept.sequences, kept.chained⟩,
    kept.latest, kept.known⟩

theorem costed_insertIntent {ledger : Ledger} (costed : ledger.Costed) (intents : Dict String Intent) :
    Costed { ledger with intents := intents } :=
  ⟨costed.owned, costed.positions⟩

end Ledger

/-- The row that a call commits for its decision, whichever kind of call it is. -/
def Call.Commits (env : Environment) (call : Call) (ledger next : Ledger) (row : Decision) : Prop :=
  match call with
  | .recordDecision accountId decisionId _ _ request => ∃ resolved prepared now,
      (request = .pass → prepared.quote = none) ∧
      ledger.commitPrepared env.names accountId decisionId (env.requestHash call) request resolved prepared now =
        .ok (next, row)
  | .recordExit _ decisionId positionId terms => ∃ resolved prepared now,
      ledger.commitExit decisionId positionId (env.requestHash call) terms resolved prepared now = .ok (next, row)

namespace Call

variable {env : Environment} {call : Call} {ledger next : Ledger} {row : Decision}

theorem Commits.spec (commits : call.Commits env ledger next row)
    (absent : ledger.decisions.get? call.decisionId = none) :
    row.requestHash = env.requestHash call ∧ next.decisions.get? call.decisionId = some row ∧
      (∀ id, call.decisionId ≠ id → next.decisions.get? id = ledger.decisions.get? id) ∧
      next.intents = ledger.intents ∧ ledger.Grows next := by
  cases call with
  | recordDecision accountId decisionId opportunityId revision request =>
    obtain ⟨resolved, prepared, now, -, committed⟩ := commits
    change ledger.decisions.get? decisionId = none at absent
    rcases Ledger.commitPrepared_ok committed with
      ⟨-, found, -⟩ | ⟨settlement, _, positioned, -, recorded, opened, ordered⟩
    · rw [found] at absent
      cases absent
    have unordered : next.decisions = positioned.decisions ∧ next.intents = positioned.intents ∧
        next.positions = positioned.positions := by
      rcases Ledger.withOrder_ok ordered with ⟨rfl, -⟩ | ⟨order, events, free, -, -, rfl⟩
      · exact ⟨rfl, rfl, rfl⟩
      · exact ⟨rfl, rfl, rfl⟩
    have hash : row.requestHash = env.requestHash (.recordDecision accountId decisionId opportunityId revision request) := by
      rw [recorded]
      rfl
    have own : next.decisions = ledger.decisions.add decisionId row absent := by
      rcases Ledger.withPosition_ok opened with rfl | ⟨position, free, -, -, -, -, -, -, -, rfl⟩
      · exact unordered.1
      · exact unordered.1
    have added : next.decisions.get? decisionId = some row := by rw [own, Dict.get?_add_self]
    have others : ∀ id, decisionId ≠ id → next.decisions.get? id = ledger.decisions.get? id := by
      intro id different
      rw [own, Dict.get?_add_other absent different]
    rcases Ledger.withPosition_ok opened with rfl | ⟨position, free, -, -, -, -, -, -, -, rfl⟩
    · refine ⟨hash, added, others, unordered.2.1, ⟨fun id old found => ?_, fun id old found => ?_, fun id old found => ?_⟩⟩
      · rw [own]
        exact Dict.get?_add_of_some absent found
      · rw [unordered.2.1]
        exact found
      · rw [unordered.2.2]
        exact found
    · refine ⟨hash, added, others, unordered.2.1, ⟨fun id old found => ?_, fun id old found => ?_, fun id old found => ?_⟩⟩
      · rw [own]
        exact Dict.get?_add_of_some absent found
      · rw [unordered.2.1]
        exact found
      · rw [unordered.2.2]
        exact Dict.get?_add_of_some free found
  | recordExit accountId decisionId positionId terms =>
    obtain ⟨resolved, prepared, now, committed⟩ := commits
    change ledger.decisions.get? decisionId = none at absent
    rcases Ledger.commitExit_ok committed with
      ⟨-, found, -⟩ | ⟨position, settlement, _, held, -, -, recorded, after⟩
    · rw [found] at absent
      cases absent
    have hash : row.requestHash = env.requestHash (.recordExit accountId decisionId positionId terms) := by
      rw [recorded]
      rfl
    subst after
    refine ⟨hash, Dict.get?_add_self _ _ _ absent, fun id different => Dict.get?_add_other absent different, rfl,
      ⟨fun id old found => Dict.get?_add_of_some absent found, fun _ _ => id, fun _ _ => id⟩⟩

theorem Commits.kept (commits : call.Commits env ledger next row) (kept : ledger.Kept) : next.Kept := by
  cases call with
  | recordDecision accountId decisionId opportunityId revision request =>
    obtain ⟨resolved, prepared, now, passive, committed⟩ := commits
    exact Ledger.kept_commitPrepared kept passive committed
  | recordExit accountId decisionId positionId terms =>
    obtain ⟨resolved, prepared, now, committed⟩ := commits
    exact Ledger.kept_commitExit kept committed

theorem Commits.costed (commits : call.Commits env ledger next row) (costed : ledger.Costed) : next.Costed := by
  cases call with
  | recordDecision accountId decisionId opportunityId revision request =>
    obtain ⟨resolved, prepared, now, passive, committed⟩ := commits
    exact Ledger.costed_commitPrepared costed committed
  | recordExit accountId decisionId positionId terms =>
    obtain ⟨resolved, prepared, now, committed⟩ := commits
    exact Ledger.costed_commitExit costed committed

/-- Everything that a transaction of a call can do to the rows of its account. -/
inductive Change (env : Environment) (call : Call) (ledger : Ledger) : Ledger → Prop
  | same : Change env call ledger ledger
  | intends (intent : Intent) (undecided : ledger.decisions.get? call.decisionId = none)
      (absent : ledger.intents.get? call.decisionId = none) (hash : intent.requestHash = env.requestHash call)
      (held : ∀ accountId decisionId positionId terms, call = .recordExit accountId decisionId positionId terms →
        (ledger.positions.get? positionId).isSome) :
      Change env call ledger { ledger with intents := ledger.intents.add call.decisionId intent absent }
  | decides (next : Ledger) (row : Decision) (absent : ledger.decisions.get? call.decisionId = none)
      (intended : ∃ intent, ledger.intents.get? call.decisionId = some intent ∧
        intent.requestHash = env.requestHash call)
      (commits : call.Commits env ledger next row) : Change env call ledger next

theorem Change.grows (change : call.Change env ledger next) : ledger.Grows next := by
  cases change with
  | same => exact ledger.grows_refl
  | intends intent undecided absent hash held =>
    exact ⟨fun _ _ => id, fun id old found => Dict.get?_add_of_some absent found, fun _ _ => id⟩
  | decides _ row absent intended commits => exact (commits.spec absent).2.2.2.2

theorem Change.others (change : call.Change env ledger next) {decisionId : String}
    (different : call.decisionId ≠ decisionId) :
    next.decisions.get? decisionId = ledger.decisions.get? decisionId := by
  cases change with
  | same => rfl
  | intends intent undecided absent hash held => rfl
  | decides _ row absent intended commits => exact (commits.spec absent).2.2.1 decisionId different

/-- What a transaction of an open call leaves for the rest of the call. -/
def Leaves (env : Environment) (call : Call) (next : Ledger) : Began → Prop
  | .finished row => next.decisions.get? call.decisionId = some row ∧ row.requestHash = env.requestHash call
  | _ => next.decisions.get? call.decisionId = none ∧ ∃ intent, next.intents.get? call.decisionId = some intent ∧
      intent.requestHash = env.requestHash call

theorem finished_of_replay {existing : Decision} {began : Began}
    (found : ledger.decisions.get? call.decisionId = some existing)
    (replayed : ((existing.replay (env.requestHash call)).map fun decision => (ledger, Began.finished decision)) =
      .ok (next, began)) : call.Change env ledger next ∧ call.Leaves env next began := by
  obtain ⟨decision, replay, result⟩ := map_ok replayed
  obtain ⟨rfl, hash⟩ := replay_ok replay
  cases result
  exact ⟨.same, found, hash⟩

theorem begin_ok {input : Input} {began : Began} (begun : call.begin env ledger input = .ok (next, began)) :
    call.Change env ledger next ∧ call.Leaves env next began := by
  cases call with
  | recordDecision accountId decisionId opportunityId revision request =>
    simp only [begin, Ledger.beginDecision] at begun
    split at begun
    · rename_i existing found
      exact finished_of_replay found begun
    · rename_i undecided
      split at begun
      · rename_i intent found
        split_ifs at begun with hash
        obtain ⟨⟨after, row⟩, committed, result⟩ := map_ok begun
        cases result
        have intended : ∃ intent, ledger.intents.get? decisionId = some intent ∧
            intent.requestHash = env.requestHash (.recordDecision accountId decisionId opportunityId revision request) :=
          ⟨intent, found, not_not.1 hash⟩
        have commits : (recordDecision accountId decisionId opportunityId revision request).Commits env ledger after row :=
          ⟨_, _, _, Store.unquoted_pass _ _, committed⟩
        obtain ⟨rowHash, added, -⟩ := commits.spec undecided
        exact ⟨.decides after row undecided intended commits, added, rowHash⟩
      · rename_i absent
        cases resolution : input.resolution with
        | error raised => simp [resolution, bind, Except.bind] at begun
        | ok resolved =>
          simp only [resolution, bind, Except.bind] at begun
          split_ifs at begun with moved
          cases begun
          exact ⟨.intends (Ledger.decisionIntent _ request resolved input.now) undecided absent rfl
            (fun _ _ _ _ other => by cases other), undecided, _, Dict.get?_add_self _ _ _ absent, rfl⟩
  | recordExit accountId decisionId positionId terms =>
    simp only [begin, Ledger.beginExit] at begun
    split at begun
    · rename_i existing found
      exact finished_of_replay found begun
    · rename_i undecided
      split at begun
      · rename_i intent found
        split_ifs at begun with hash
        cases begun
        exact ⟨.same, undecided, intent, found, not_not.1 hash⟩
      · rename_i absent
        split at begun
        · cases begun
        · rename_i position held
          split at begun
          · cases begun
          · split at begun
            · cases begun
            · split_ifs at begun with closed exceeds
              cases begun
              refine ⟨.intends (Ledger.exitIntent _ positionId terms _ input.now) undecided absent rfl ?_, undecided,
                _, Dict.get?_add_self _ _ _ absent, rfl⟩
              intro _ _ other _ same
              cases same
              rw [held]
              rfl

theorem commit_ok {resolved : ResolvedOpportunity} {prepared : PreparedDecision} {now : Instant}
    (undecided : ledger.decisions.get? call.decisionId = none)
    (intended : ∃ intent, ledger.intents.get? call.decisionId = some intent ∧
      intent.requestHash = env.requestHash call)
    (passive : ∀ accountId decisionId opportunityId revision,
      call = .recordDecision accountId decisionId opportunityId revision .pass → prepared.quote = none)
    (committed : call.commit env ledger resolved prepared now = .ok (next, row)) :
    call.Change env ledger next ∧ call.Leaves env next (.finished row) := by
  have commits : call.Commits env ledger next row := by
    cases call with
    | recordDecision accountId decisionId opportunityId revision request =>
      refine ⟨resolved, prepared, now, ?_, committed⟩
      rintro rfl
      exact passive _ _ _ _ rfl
    | recordExit accountId decisionId positionId terms => exact ⟨resolved, prepared, now, committed⟩
  obtain ⟨hash, added, -⟩ := commits.spec undecided
  exact ⟨.decides next row undecided intended commits, added, hash⟩

end Call

end Callisto.Paper
