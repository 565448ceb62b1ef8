import Callisto.Paper.CallsRejected

/-! Every pair of an account and a decision id is decided at most once, whatever calls interleave and
wherever they break off. -/

namespace Callisto.Paper

open Callisto.Library Callisto.Library.Runs

/-- The pair has an intent, and what decides it can only be a rejection. -/
structure Machine.Expired (machine : Machine) (accountId decisionId : String) : Prop where
  rejected : ∃ ledger, machine.store.get? accountId = some ledger ∧ (ledger.intents.get? decisionId).isSome ∧
    ∀ row, ledger.decisions.get? decisionId = some row → row.status = .rejected ∧ row.filledQuantity = 0
  rejecting : ∀ client call, (machine.calls client).underway = some call → call.accountId = accountId →
    call.decisionId = decisionId →
      ∃ resolved reason, machine.calls client = .committing call resolved (.rejected reason)

/-- Another request has the pair of a call that has not passed its first transaction. -/
structure Machine.Refuses (env : Environment) (machine : Machine) (client : ℕ) (call : Call) : Prop where
  taken : ∃ ledger intent, machine.store.get? call.accountId = some ledger ∧
    ledger.intents.get? call.decisionId = some intent ∧ intent.requestHash ≠ env.requestHash call
  refused : machine.calls client = .reading call ∨
    (∃ acquired todo, machine.calls client = .locking call acquired todo) ∨ machine.calls client = .intending call ∨
    machine.calls client = .unlocking call (.raised .decisionConflict) ∨
    machine.calls client = .ended call (.raised .decisionConflict) ∨ machine.calls client = .ended call .brokenOff

section
variable {env : Environment} {started : Set Call} {machine : Machine} {accountId decisionId : String} {call : Call} {client : ℕ}

theorem breakOff_other {client other : ℕ} (different : other ≠ client) :
    (machine.breakOff client).calls other = machine.calls other := by
  unfold Machine.breakOff
  split <;> simp [Machine.goTo, Machine.release, different]

theorem breakOff_own : (machine.breakOff client).calls client = machine.calls client ∨
    ∃ call, (machine.calls client).call? = some call ∧ (machine.breakOff client).calls client = .ended call .brokenOff := by
  unfold Machine.breakOff
  cases progress : machine.calls client with
  | idle => exact Or.inl progress
  | ended call result => exact Or.inl progress
  | _ => exact Or.inr ⟨_, rfl, by simp [Machine.goTo]⟩

theorem step_underway {event : Event} (foreign : ¬ machine.ActsFor accountId decisionId event)
    (between : ((machine.step env event).calls client).underway = some call) (account : call.accountId = accountId)
    (decision : call.decisionId = decisionId) : (machine.step env event).calls client = machine.calls client := by
  cases event with
  | createAccount _ _ _ _ => rfl
  | cancelOrder _ _ _ _ => rfl
  | start other begun =>
    simp only [Machine.step] at between ⊢
    split at between
    · by_cases same : client = other
      · subst same
        simp [Machine.goTo, Progress.underway] at between
      · simp [Machine.goTo, same]
    · rfl
  | advance other input =>
    by_cases same : client = other
    · subst same
      have own : (machine.calls client).call? = some call := by
        rw [← @advance_call env machine client input]
        exact call_of_holding (holding_of_underway between)
      exact absurd ⟨call, own, account, decision⟩ foreign
    · exact advance_other same input
  | breakOff other =>
    by_cases same : client = other
    · subst same
      rcases @breakOff_own machine client with unchanged | ⟨ending, -, ended⟩
      · exact unchanged
      · change ((machine.breakOff client).calls client).underway = some call at between
        rw [ended] at between
        cases between
    · exact breakOff_other same

variable {ledger : Ledger} {intent : Intent}

theorem open_of_intended (traced : ledger.Traced env started accountId)
    (distinct : started.InjOn env.requestHash) (begun : call ∈ started)
    (found : ledger.intents.get? decisionId = some intent) (hash : intent.requestHash = env.requestHash call) :
    ∀ account decision positionId terms, call = .recordExit account decision positionId terms →
      (ledger.positions.get? positionId).isSome := by
  obtain ⟨inserting, member, same, held⟩ := traced.intended _ intent found
  have own : inserting = call := distinct member begun (same.trans hash)
  rw [← own]
  exact held

theorem expired_own (sound : Sound env started machine) (distinct : started.InjOn env.requestHash)
    (expired : machine.Expired accountId decisionId)
    (own : (machine.calls client).call? = some call) (account : call.accountId = accountId)
    (decision : call.decisionId = decisionId) (input : Input) :
    (∃ before after, machine.store.get? accountId = some before ∧
      (machine.advance env client input).store.get? accountId = some after ∧ after.holdings = before.holdings ∧
      (after.intents.get? decisionId).isSome ∧
      ∀ row, after.decisions.get? decisionId = some row → row.status = .rejected ∧ row.filledQuantity = 0) ∧
    ∀ other, ((machine.advance env client input).calls client).underway = some other →
      ∃ resolved reason, (machine.advance env client input).calls client = .committing other resolved (.rejected reason) := by
  subst account decision
  obtain ⟨ledger, held, intended, rejected⟩ := expired.rejected
  obtain ⟨intent, found⟩ := Option.isSome_iff_exists.1 intended
  have fits := sound.clients client
  have begun := fits.begun call own
  have traced := sound.ledgers _ ledger held
  cases holds : (machine.calls client).holding with
  | none =>
    obtain ⟨store, quiet⟩ := @advance_quiet env machine client holds input
    refine ⟨⟨ledger, ledger, held, by rw [store, held], rfl, intended, rejected⟩, fun other between => ?_⟩
    rw [quiet] at between
    cases between
  | some holder =>
    have same : holder = call := by
      have named := call_of_holding holds
      rw [own] at named
      exact (Option.some.inj named).symm
    subst same
    cases progress : machine.calls client with
    | idle => simp [progress, Progress.holding] at holds
    | reading _ => simp [progress, Progress.holding] at holds
    | locking _ _ _ => simp [progress, Progress.holding] at holds
    | unlocking _ _ => simp [progress, Progress.holding] at holds
    | ended _ _ => simp [progress, Progress.holding] at holds
    | fetching other resolved =>
      -- an expired pair has no call at its quote
      have equal : other = holder := by simpa [progress, Progress.holding] using holds
      subst equal
      have between : (machine.calls client).underway = some other := by rw [progress]; rfl
      obtain ⟨_, _, committing⟩ := expired.rejecting client other between rfl rfl
      rw [progress] at committing
      cases committing
    | committing other resolved prepared =>
      have equal : other = holder := by simpa [progress, Progress.holding] using holds
      subst equal
      have between : (machine.calls client).underway = some other := by rw [progress]; rfl
      obtain ⟨_, reason, committing⟩ := expired.rejecting client other between rfl rfl
      obtain ⟨known, heldToo, undecided, mine, minted, hash⟩ := fits.underway other between
      rw [held] at heldToo
      cases heldToo
      rw [found] at minted
      cases minted
      obtain ⟨next, row, rejects, store, after⟩ := @rejects_advance env machine ledger client other _ reason committing
        held traced.costed undecided (open_of_intended traced distinct begun found hash) input
      have grows := (writes_advance sound client input).grows held
      obtain ⟨grown, nextHeld, bigger, -⟩ := grows
      have equal : grown = next := by
        rw [store, Dict.get?_set, if_pos rfl] at nextHeld
        exact (Option.some.inj nextHeld).symm
      subst equal
      refine ⟨⟨ledger, grown, held, nextHeld, rejects.2.2.2, ?_, fun decided same => ?_⟩, fun late underway => ?_⟩
      · rw [bigger.intents _ intent found]
        rfl
      · rw [rejects.1] at same
        cases same
        exact ⟨rejects.2.1, rejects.2.2.1⟩
      · rw [after] at underway
        cases underway
    | intending other =>
      have equal : other = holder := by simpa [progress, Progress.holding] using holds
      subst equal
      cases decided : ledger.decisions.get? other.decisionId with
      | some existing =>
        obtain ⟨store, after⟩ := advance_of_replay progress held (@begin_decided env ledger other existing input decided)
        refine ⟨⟨ledger, ledger, held, by rw [store, held], rfl, intended, rejected⟩, fun late underway => ?_⟩
        rw [after] at underway
        cases underway
      | none =>
        by_cases hash : intent.requestHash = env.requestHash other
        · have resumes := resumes_advance progress held found decided hash input
          cases other with
          | recordDecision account decision opportunity revision request =>
            obtain ⟨next, row, rejects, -, store, after⟩ := resumes
            obtain ⟨grown, nextHeld, bigger, -⟩ := (writes_advance sound client input).grows held
            have equal : grown = next := by
              rw [store, Dict.get?_set] at nextHeld
              exact (Option.some.inj (nextHeld.symm.trans (if_pos rfl)))
            subst equal
            refine ⟨⟨ledger, grown, held, nextHeld, rejects.2.2.2, ?_, fun late same => ?_⟩, fun late underway => ?_⟩
            · rw [bigger.intents _ intent found]
              rfl
            · have equal : some row = some late := rejects.1.symm.trans same
              cases equal
              exact ⟨rejects.2.1, rejects.2.2.1⟩
            · rw [after] at underway
              cases underway
          | recordExit account decision positionId terms =>
            obtain ⟨resolved, store, after⟩ := resumes
            refine ⟨⟨ledger, ledger, held, by rw [store, held], rfl, intended, rejected⟩, fun late underway => ?_⟩
            rw [after] at underway ⊢
            cases underway
            exact ⟨resolved, _, rfl⟩
        · have refused : other.begin env ledger input =
              (Except.error ServiceError.decisionConflict : Except ServiceError Decision).map
                fun decision => (ledger, .finished decision) := begin_conflict input decided found hash
          obtain ⟨store, after⟩ := advance_of_replay progress held refused
          refine ⟨⟨ledger, ledger, held, by rw [store, held], rfl, intended, rejected⟩, fun late underway => ?_⟩
          rw [after] at underway
          cases underway

/-- An expired pair stays expired, and no step of its calls changes what the account holds. -/
theorem expired_step (sound : Sound env started machine) (distinct : started.InjOn env.requestHash)
    (expired : machine.Expired accountId decisionId) (event : Event) :
    (machine.step env event).Expired accountId decisionId ∧
      (machine.ActsFor accountId decisionId event → ¬ machine.Moves env accountId event) := by
  by_cases acts : machine.ActsFor accountId decisionId event
  · cases event with
    | advance client input =>
      obtain ⟨call, own, account, decision⟩ := acts
      obtain ⟨⟨before, after, held, found, holdings, intended, rejected⟩, rejecting⟩ :=
        expired_own sound distinct expired own account decision input
      refine ⟨⟨⟨after, found, intended, rejected⟩, fun other late between named known => ?_⟩, fun _ moves => moves ?_⟩
      · by_cases same : other = client
        · subst same
          exact rejecting late between
        · change ((machine.advance env client input).calls other).underway = some late at between
          change ∃ resolved reason, (machine.advance env client input).calls other = _
          rw [advance_other same] at between ⊢
          exact expired.rejecting other late between named known
      · change ((machine.advance env client input).store.get? accountId).map Ledger.holdings = _
        rw [found, held, Option.map_some, Option.map_some, holdings]
    | _ => cases acts
  · refine ⟨⟨?_, fun other late between named known => ?_⟩, fun acting => absurd acting acts⟩
    · obtain ⟨ledger, held, intended, rejected⟩ := expired.rejected
      obtain ⟨intent, found⟩ := Option.isSome_iff_exists.1 intended
      obtain ⟨after, nextHeld, bigger, decisions⟩ := (writes_step sound event).grows held
      refine ⟨after, nextHeld, ?_, fun row decided => ?_⟩
      · rw [bigger.intents _ intent found]
        rfl
      · rw [decisions decisionId acts] at decided
        exact rejected row decided
    · have same := step_underway acts between named known
      rw [same] at between ⊢
      exact expired.rejecting other late between named known

theorem decided_of_moves (sound : Sound env started machine) {event : Event}
    (acts : machine.ActsFor accountId decisionId event) (moves : machine.Moves env accountId event) :
    (∃ ledger, machine.store.get? accountId = some ledger ∧ ledger.decisions.get? decisionId = none) ∧
      ∃ ledger row, (machine.step env event).store.get? accountId = some ledger ∧
        ledger.decisions.get? decisionId = some row := by
  have writes := writes_step sound event
  unfold Machine.Moves at moves
  generalize (machine.step env event).store = next at writes moves
  cases writes with
  | nothing => exact absurd rfl moves
  | creates => cases acts
  | cancels => cases acts
  | changes client input call ledger after holds held change =>
    obtain ⟨acting, own, account, decision⟩ := acts
    have same : acting = call := by
      rw [call_of_holding holds] at own
      exact (Option.some.inj own).symm
    subst same account decision
    rw [Dict.get?_set, if_pos rfl] at moves ⊢
    rw [held, Option.map_some, Option.map_some] at moves
    cases change with
    | same => exact absurd rfl moves
    | intends intent undecided absent hash open_ => exact absurd rfl moves
    | decides _ row absent intended commits =>
      exact ⟨⟨ledger, held, absent⟩, after, row, rfl, (commits.spec absent).2.1⟩

theorem decided_run (sound : Sound env started machine) {row : Decision}
    (held : machine.store.get? accountId = some ledger) (decided : ledger.decisions.get? decisionId = some row)
    {events : List Event} (starts : startedIn events ⊆ started) :
    ∃ after, (run (Machine.step env) machine events).store.get? accountId = some after ∧
      after.decisions.get? decisionId = some row := by
  induction events generalizing machine ledger with
  | nil => exact ⟨ledger, held, decided⟩
  | cons event rest ih =>
    obtain ⟨after, found, bigger, -⟩ := (writes_step sound event).grows held
    have next : Sound env started (machine.step env event) := by
      apply sound_step sound event
      rintro client call rfl
      exact starts ⟨client, List.mem_cons_self⟩
    apply ih next found (bigger.decisions _ row decided)
    rintro call ⟨client, member⟩
    exact starts ⟨client, List.mem_cons_of_mem _ member⟩

theorem mover_of_moves (sound : Sound env started machine) {event : Event} (moves : machine.Moves env accountId event) :
    (∃ id, machine.ActsFor accountId id event) ∨ (∃ name cash now, event = .createAccount accountId name cash now) ∨
      ∃ orderId cancellationId now, event = .cancelOrder accountId orderId cancellationId now := by
  have writes := writes_step sound event
  unfold Machine.Moves at moves
  generalize (machine.step env event).store = next at writes moves
  cases writes with
  | nothing => exact absurd rfl moves
  | creates created name cash now nonneg absent =>
    rw [Dict.get?_add] at moves
    split_ifs at moves with own
    · subst own
      exact Or.inr (Or.inl ⟨name, cash, now, rfl⟩)
    · exact absurd rfl moves
  | cancels owner orderId cancellationId now ledger after cancellation held cancelled =>
    rw [Dict.get?_set] at moves
    split_ifs at moves with own
    · subst own
      exact Or.inr (Or.inr ⟨orderId, cancellationId, now, rfl⟩)
    · exact absurd rfl moves
  | changes client input call ledger after holds held change =>
    rw [Dict.get?_set] at moves
    split_ifs at moves with own
    · subst own
      exact Or.inl ⟨call.decisionId, call, call_of_holding holds, rfl, rfl⟩
    · exact absurd rfl moves

theorem replay_conflict {existing : Decision}
    (traced : ledger.Traced env started accountId) (found : ledger.intents.get? call.decisionId = some intent)
    (hash : intent.requestHash ≠ env.requestHash call) (decided : ledger.decisions.get? call.decisionId = some existing) :
    existing.replay (env.requestHash call) = .error .decisionConflict := by
  obtain ⟨minted, known, same⟩ := traced.decided _ existing decided
  rw [found] at known
  cases known
  unfold Decision.replay
  rw [if_pos (fun equal => hash (same.trans equal))]

theorem refused_intending (sound : Sound env started machine)
    (held : machine.store.get? call.accountId = some ledger)
    (found : ledger.intents.get? call.decisionId = some intent) (hash : intent.requestHash ≠ env.requestHash call)
    (intending : machine.calls client = .intending call) (input : Input) :
    (machine.advance env client input).store = machine.store ∧
      (machine.advance env client input).calls client = .unlocking call (.raised .decisionConflict) := by
  have refused : call.begin env ledger input =
      (Except.error ServiceError.decisionConflict : Except ServiceError Decision).map
        fun decision => (ledger, .finished decision) := by
    cases decided : ledger.decisions.get? call.decisionId with
    | some existing =>
      rw [begin_decided input decided, replay_conflict (sound.ledgers _ ledger held) found hash decided]
    | none => exact begin_conflict input decided found hash
  exact advance_of_replay intending held refused

theorem refused_reading (sound : Sound env started machine)
    (held : machine.store.get? call.accountId = some ledger)
    (found : ledger.intents.get? call.decisionId = some intent) (hash : intent.requestHash ≠ env.requestHash call)
    (reading : machine.calls client = .reading call) (input : Input) :
    (machine.advance env client input).store = machine.store ∧
      (machine.advance env client input).calls client =
        if (ledger.decisions.get? call.decisionId).isSome then .ended call (.raised .decisionConflict)
        else .locking call [] (call.lockKeys env) := by
  unfold Machine.advance
  cases decided : ledger.decisions.get? call.decisionId with
  | some existing =>
    have read : call.readExisting env machine.store = .error .decisionConflict := by
      simp [Call.readExisting, held, decided, replay_conflict (sound.ledgers _ ledger held) found hash decided, Except.map]
    simp only [reading, read]
    exact ⟨rfl, by simp [Machine.goTo]⟩
  | none =>
    have read : call.readExisting env machine.store = .ok none := by simp [Call.readExisting, held, decided]
    simp only [reading, read]
    exact ⟨rfl, by simp [Machine.goTo]⟩

theorem refused_advance (sound : Sound env started machine)
    (refuses : machine.Refuses env client call) (input : Input) :
    (machine.advance env client input).store = machine.store ∧ (machine.advance env client input).Refuses env client call := by
  obtain ⟨ledger, intent, held, found, hash⟩ := refuses.taken
  have taken : ∀ next : Machine, next.store = machine.store → ∃ ledger intent,
      next.store.get? call.accountId = some ledger ∧ ledger.intents.get? call.decisionId = some intent ∧
        intent.requestHash ≠ env.requestHash call :=
    fun next same => ⟨ledger, intent, by rw [same, held], found, hash⟩
  rcases refuses.refused with reading | ⟨acquired, todo, locking⟩ | intending | unlocking | raised | broken
  · obtain ⟨store, after⟩ := refused_reading sound held found hash reading input
    refine ⟨store, taken _ store, ?_⟩
    rw [after]
    split_ifs
    · exact Or.inr (Or.inr (Or.inr (Or.inr (Or.inl rfl))))
    · exact Or.inr (Or.inl ⟨_, _, rfl⟩)
  · unfold Machine.advance
    simp only [locking]
    cases todo with
    | nil => exact ⟨rfl, taken _ rfl, Or.inr (Or.inr (Or.inl (by simp [Machine.goTo])))⟩
    | cons key rest =>
      simp only
      cases machine.holder key with
      | some holder => exact ⟨rfl, refuses.taken, Or.inr (Or.inl ⟨_, _, locking⟩)⟩
      | none => exact ⟨rfl, taken _ rfl, Or.inr (Or.inl ⟨acquired ++ [key], rest, by simp [Machine.goTo]⟩)⟩
  · obtain ⟨store, after⟩ := refused_intending sound held found hash intending input
    exact ⟨store, taken _ store, Or.inr (Or.inr (Or.inr (Or.inl after)))⟩
  · unfold Machine.advance
    simp only [unlocking]
    exact ⟨rfl, taken _ rfl, Or.inr (Or.inr (Or.inr (Or.inr (Or.inl (by simp [Machine.goTo])))))⟩
  · have same : machine.advance env client input = machine := by
      unfold Machine.advance
      simp only [raised]
    rw [same]
    exact ⟨rfl, refuses⟩
  · have same : machine.advance env client input = machine := by
      unfold Machine.advance
      simp only [broken]
    rw [same]
    exact ⟨rfl, refuses⟩

theorem Machine.Refuses.call_eq (refuses : machine.Refuses env client call) :
    (machine.calls client).call? = some call := by
  rcases refuses.refused with found | ⟨_, _, found⟩ | found | found | found | found
  all_goals
    rw [found]
    rfl

theorem refused_step (sound : Sound env started machine)
    (refuses : machine.Refuses env client call) (event : Event) :
    (machine.step env event).Refuses env client call ∧
      ∀ input, event = .advance client input → (machine.step env event).store = machine.store := by
  obtain ⟨ledger, intent, held, found, hash⟩ := refuses.taken
  have taken : ∃ ledger intent, (machine.step env event).store.get? call.accountId = some ledger ∧
      ledger.intents.get? call.decisionId = some intent ∧ intent.requestHash ≠ env.requestHash call := by
    obtain ⟨after, nextHeld, bigger, -⟩ := (writes_step sound event).grows held
    exact ⟨after, intent, nextHeld, bigger.intents _ intent found, hash⟩
  have stays : (machine.step env event).calls client = machine.calls client →
      (machine.step env event).Refuses env client call := by
    intro same
    refine ⟨taken, ?_⟩
    rw [same]
    exact refuses.refused
  cases event with
  | createAccount _ _ _ _ => exact ⟨stays rfl, fun _ other => by cases other⟩
  | cancelOrder _ _ _ _ => exact ⟨stays rfl, fun _ other => by cases other⟩
  | start other begun =>
    refine ⟨stays ?_, fun _ other => by cases other⟩
    simp only [Machine.step]
    split
    · rename_i idle
      have different : client ≠ other := by
        rintro rfl
        have named := refuses.call_eq
        rw [idle] at named
        cases named
      simp [Machine.goTo, different]
    · rfl
  | advance other input =>
    by_cases same : client = other
    · subst same
      obtain ⟨store, refused⟩ := refused_advance sound refuses input
      exact ⟨refused, fun _ _ => store⟩
    · refine ⟨stays (advance_other same input), fun _ equal => ?_⟩
      cases equal
      exact absurd rfl same
  | breakOff other =>
    refine ⟨?_, fun _ other => by cases other⟩
    by_cases same : client = other
    · subst same
      rcases @breakOff_own machine client with unchanged | ⟨ending, named, ended⟩
      · exact stays unchanged
      · have equal : ending = call := by
          rw [refuses.call_eq] at named
          exact (Option.some.inj named).symm
        subst equal
        exact ⟨taken, Or.inr (Or.inr (Or.inr (Or.inr (Or.inr ended))))⟩
    · exact stays (breakOff_other same)

theorem refused_of_mismatch (sound : Sound env started machine)
    (held : machine.store.get? call.accountId = some ledger)
    (found : ledger.intents.get? call.decisionId = some intent) (hash : intent.requestHash ≠ env.requestHash call) :
    (machine.calls client).underway ≠ some call ∧ ∀ row, (machine.calls client).returned ≠ some (call, row) := by
  have fits := sound.clients client
  constructor
  · intro between
    obtain ⟨known, heldToo, -, minted, other, same⟩ := fits.underway call between
    rw [held] at heldToo
    cases heldToo
    rw [found] at other
    cases other
    exact hash same
  · intro row finished
    obtain ⟨known, heldToo, decided, same⟩ := fits.returned call row finished
    rw [held] at heldToo
    cases heldToo
    obtain ⟨minted, other, equal⟩ := (sound.ledgers _ ledger held).decided _ row decided
    rw [found] at other
    cases other
    exact hash (equal.trans same)

theorem expired_run (sound : Sound env started machine) (distinct : started.InjOn env.requestHash)
    (expired : machine.Expired accountId decisionId) {events : List Event} (starts : startedIn events ⊆ started) :
    (run (Machine.step env) machine events).Expired accountId decisionId := by
  induction events generalizing machine with
  | nil => exact expired
  | cons event rest ih =>
    have next : Sound env started (machine.step env event) := by
      apply sound_step sound event
      rintro client call rfl
      exact starts ⟨client, List.mem_cons_self⟩
    apply ih next (expired_step sound distinct expired event).1
    rintro call ⟨client, member⟩
    exact starts ⟨client, List.mem_cons_of_mem _ member⟩

end

/-- The intent of a pair was left behind: there is no decision, and no call between the two transactions. -/
def Machine.Orphaned (machine : Machine) (accountId decisionId : String) : Prop :=
  (∃ ledger, machine.store.get? accountId = some ledger ∧ (ledger.intents.get? decisionId).isSome ∧
    ledger.decisions.get? decisionId = none) ∧
  ∀ client call, (machine.calls client).underway = some call →
    ¬ (call.accountId = accountId ∧ call.decisionId = decisionId)

theorem Machine.Orphaned.expired {machine : Machine} {accountId decisionId : String}
    (orphaned : machine.Orphaned accountId decisionId) : machine.Expired accountId decisionId := by
  obtain ⟨⟨ledger, held, intended, undecided⟩, nobody⟩ := orphaned
  refine ⟨⟨ledger, held, intended, fun row decided => ?_⟩, fun client call between account decision => ?_⟩
  · rw [undecided] at decided
    cases decided
  · exact absurd ⟨account, decision⟩ (nobody client call between)

/-- What the service keeps in a run, for every account and every decision id. -/
structure DecidesOnce (env : Environment) (events : List Event) : Prop where
  /-- One intent and one decision at most, of one request. -/
  rows : ∀ accountId ledger, (Machine.reached env events).store.get? accountId = some ledger → ∀ decisionId,
    (ledger.intents.entries.filter fun entry => entry.1 = decisionId).length ≤ 1 ∧
    (ledger.decisions.entries.filter fun entry => entry.1 = decisionId).length ≤ 1 ∧
    ∀ row, ledger.decisions.get? decisionId = some row →
      ∃ intent, ledger.intents.get? decisionId = some intent ∧ row.requestHash = intent.requestHash
  /-- The steps for a pair change what the account holds at most once. -/
  once : ∀ accountId decisionId first event second later third, events = first ++ event :: second ++ later :: third →
    (Machine.reached env first).ActsFor accountId decisionId event →
    (Machine.reached env first).Moves env accountId event →
    (Machine.reached env (first ++ event :: second)).ActsFor accountId decisionId later →
      ¬ (Machine.reached env (first ++ event :: second)).Moves env accountId later
  /-- Nothing else changes it but a cancellation and the creation of the account. -/
  movers : ∀ accountId first event second, events = first ++ event :: second →
    (Machine.reached env first).Moves env accountId event →
      (∃ decisionId, (Machine.reached env first).ActsFor accountId decisionId event) ∨
      (∃ name cash now, event = .createAccount accountId name cash now) ∨
      ∃ orderId cancellationId now, event = .cancelOrder accountId orderId cancellationId now
  /-- What a call returns is the decision of its pair. -/
  returned : ∀ client call row, ((Machine.reached env events).calls client).returned = some (call, row) →
    ∃ ledger, (Machine.reached env events).store.get? call.accountId = some ledger ∧
      ledger.decisions.get? call.decisionId = some row ∧ row.requestHash = env.requestHash call
  /-- A call of another request is refused: it writes nothing and ends with the conflict. -/
  conflict : ∀ client call ledger intent, (Machine.reached env events).store.get? call.accountId = some ledger →
    ledger.intents.get? call.decisionId = some intent → intent.requestHash ≠ env.requestHash call →
      ((Machine.reached env events).calls client).underway ≠ some call ∧
      (∀ row, ((Machine.reached env events).calls client).returned ≠ some (call, row)) ∧
      ∀ input, ((Machine.reached env events).calls client = .intending call →
          ((Machine.reached env events).advance env client input).calls client =
            .unlocking call (.raised .decisionConflict)) ∧
        ((Machine.reached env events).calls client = .reading call → (ledger.decisions.get? call.decisionId).isSome →
          ((Machine.reached env events).advance env client input).calls client =
            .ended call (.raised .decisionConflict))
  refused : ∀ client call first event second, events = first ++ event :: second →
    (Machine.reached env first).Refuses env client call →
      (Machine.reached env (first ++ [event])).Refuses env client call ∧ ∀ input, event = .advance client input →
        (Machine.reached env (first ++ [event])).store = (Machine.reached env first).store
  /-- The next call of an intent that was left behind rejects it, without a quote. -/
  resumed : ∀ client call ledger intent, (Machine.reached env events).calls client = .intending call →
    (Machine.reached env events).store.get? call.accountId = some ledger →
    ledger.intents.get? call.decisionId = some intent → ledger.decisions.get? call.decisionId = none →
    intent.requestHash = env.requestHash call →
      (Machine.reached env events).Orphaned call.accountId call.decisionId ∧ ∀ input,
        Resumes ledger (Machine.reached env events) ((Machine.reached env events).advance env client input) client call
  rejected : ∀ client call resolved reason,
    (Machine.reached env events).calls client = .committing call resolved (.rejected reason) → ∀ input,
      ∃ ledger next row, (Machine.reached env events).store.get? call.accountId = some ledger ∧
        ledger.Rejects next call.decisionId row ∧
        ((Machine.reached env events).advance env client input).store =
          (Machine.reached env events).store.set call.accountId next ∧
        ((Machine.reached env events).advance env client input).calls client = .unlocking call (.returned row)
  /-- From then on the pair can only be rejected, and no step for it changes what the account holds. -/
  expired : ∀ accountId decisionId first second, events = first ++ second →
    (Machine.reached env first).Orphaned accountId decisionId →
      (Machine.reached env events).Expired accountId decisionId
  unmoved : ∀ accountId decisionId first second event third, events = first ++ second ++ event :: third →
    (Machine.reached env first).Orphaned accountId decisionId →
    (Machine.reached env (first ++ second)).ActsFor accountId decisionId event →
      ¬ (Machine.reached env (first ++ second)).Moves env accountId event

theorem reached_append (env : Environment) (first second : List Event) :
    Machine.reached env (first ++ second) = run (Machine.step env) (Machine.reached env first) second :=
  run_append _ _ _ _

theorem startedIn_left (first second : List Event) : startedIn first ⊆ startedIn (first ++ second) := by
  rintro call ⟨client, member⟩
  exact ⟨client, List.mem_append_left _ member⟩

theorem startedIn_right (first second : List Event) : startedIn second ⊆ startedIn (first ++ second) := by
  rintro call ⟨client, member⟩
  exact ⟨client, List.mem_append_right _ member⟩

/-- Every pair is decided at most once, however calls interleave and wherever they break off, when the
requests of the run have different hashes. -/
theorem decidesOnce_run (env : Environment) (events : List Event)
    (distinct : (startedIn events).InjOn env.requestHash) : DecidesOnce env events := by
  have sound : Sound env (startedIn events) (Machine.reached env events) := sound_reached env (le_refl _)
  have before : ∀ first second, events = first ++ second → Sound env (startedIn events) (Machine.reached env first) := by
    rintro first second rfl
    exact sound_reached env (startedIn_left first second)
  have one : ∀ first event, Machine.reached env (first ++ [event]) = (Machine.reached env first).step env event :=
    fun first event => reached_append env first [event]
  constructor
  · intro accountId ledger held decisionId
    refine ⟨ledger.intents.filter_key_le decisionId, ledger.decisions.filter_key_le decisionId, fun row decided => ?_⟩
    obtain ⟨intent, found, same⟩ := (sound.ledgers accountId ledger held).decided decisionId row decided
    exact ⟨intent, found, same.symm⟩
  · intro accountId decisionId first event second later third split acts moves laterActs laterMoves
    have early : events = first ++ (event :: second ++ later :: third) := by rw [split, List.append_assoc]
    have atFirst := before first _ early
    have atLater := before (first ++ event :: second) (later :: third) split
    -- the first change gives the pair a decision, and it is still there at the second
    obtain ⟨-, ledger, row, held, decided⟩ := decided_of_moves atFirst acts moves
    obtain ⟨⟨laterLedger, laterHeld, undecided⟩, -⟩ := decided_of_moves atLater laterActs laterMoves
    have stepped : Sound env (startedIn events) ((Machine.reached env first).step env event) := by
      rw [← one]
      exact before (first ++ [event]) (second ++ later :: third) (by simp [split])
    have starts : startedIn second ⊆ startedIn events := by
      rintro call ⟨client, member⟩
      exact ⟨client, by simp [split, member]⟩
    obtain ⟨after, found, still⟩ := decided_run stepped held decided starts
    have same : Machine.reached env (first ++ event :: second) =
        run (Machine.step env) ((Machine.reached env first).step env event) second := by
      rw [reached_append]
      rfl
    rw [same, found] at laterHeld
    cases laterHeld
    rw [undecided] at still
    cases still
  · intro accountId first event second split moves
    exact mover_of_moves (before first _ split) moves
  · intro client call row finished
    exact (sound.clients client).returned call row finished
  · intro client call ledger intent held found hash
    obtain ⟨underway, returned⟩ := @refused_of_mismatch env _ _ call client ledger intent sound held found hash
    refine ⟨underway, returned, fun input => ⟨fun intending => ?_, fun reading decided => ?_⟩⟩
    · exact (refused_intending sound held found hash intending input).2
    · rw [(refused_reading sound held found hash reading input).2, if_pos decided]
  · intro client call first event second split refuses
    rw [one]
    exact refused_step (before first _ split) refuses event
  · intro client call ledger intent intending held found undecided hash
    refine ⟨⟨⟨ledger, held, by rw [found]; rfl, undecided⟩, fun other otherCall between own => ?_⟩, fun input => ?_⟩
    · -- a call between the transactions of the pair would hold the lock that this client holds
      have holds : ((Machine.reached env events).calls client).holding = some call := by rw [intending]; rfl
      have same := client_unique (sound.clients other) (sound.clients client) (holding_of_underway between) holds own.1 own.2
      rw [same, intending] at between
      cases between
    · exact resumes_advance intending held found undecided hash input
  · intro client call resolved reason committing input
    have between : ((Machine.reached env events).calls client).underway = some call := by rw [committing]; rfl
    have fits := sound.clients client
    obtain ⟨ledger, held, undecided, intent, found, hash⟩ := fits.underway call between
    have begun : call ∈ startedIn events := by
      apply fits.begun
      rw [committing]
      rfl
    have traced := sound.ledgers _ ledger held
    obtain ⟨next, row, rejects, store, after⟩ := rejects_advance committing held traced.costed undecided
      (open_of_intended traced distinct begun found hash) input
    exact ⟨ledger, next, row, held, rejects, store, after⟩
  · intro accountId decisionId first second split orphaned
    have starts : startedIn second ⊆ startedIn events := by
      rw [split]
      exact startedIn_right first second
    have expired := expired_run (before first second split) distinct orphaned.expired starts
    rw [split, reached_append]
    exact expired
  · intro accountId decisionId first second event third split orphaned acts
    have early : events = first ++ (second ++ event :: third) := by rw [split, List.append_assoc]
    have starts : startedIn second ⊆ startedIn events := by
      rintro call ⟨client, member⟩
      exact ⟨client, by simp [split, member]⟩
    have expired := expired_run (before first _ early) distinct orphaned.expired starts
    rw [← reached_append] at expired
    exact (expired_step (before (first ++ second) (event :: third) split) distinct expired event).2 acts

def sharedBuy : Call :=
  .recordDecision "A" "D1" "O1" "aaaaaaaaaaaaaaaaaaaaaaaaaaaaaaaaaaaaaaaaaaaaaaaaaaaaaaaaaaaaaaaa"
    (.execute ⟨100, by decide, ⟨500000, by decide, by decide⟩⟩ .immediateOrCancel)

def sharedExit : Call := .recordExit "A" "D1" "P1" ⟨100, by decide, ⟨400000, by decide, by decide⟩⟩

def digests : Environment where
  names := ⟨fun _ _ => "paper-position:4ea11e7d11014cc46081e2fb7b7ea096", fun _ _ => "paper-order:4ea11e7d11014cc46081e2fb7b7ea096"⟩
  decisionLockKey := fun name => if name = ("A", "D1") then 5665843328713837764 else 813567778536015375
  requestHash := fun call =>
    if call = sharedBuy then "634f88084d6377e3752bce35b8653d950dbe3ff020e9a1aa1d3114bf7d2dfe9d"
    else "901e33a8fc1d22fddb70721ebe3b437e9b8bc08b526c18518cc67e8897ff489d"

/-- The decision and the exit race for their id, and the one that gets the lock breaks off. -/
def sharedRun (input : Input) : List Event :=
  [.createAccount "A" "main" 100 0, .start 0 sharedBuy, .start 1 sharedExit, .advance 0 input, .advance 1 input,
    .advance 1 input, .advance 0 input, .advance 1 input, .breakOff 1, .advance 0 input, .advance 0 input]

theorem decidesOnce_sharedRun : DecidesOnce digests
    (sharedRun ⟨.error .decisionConflict, .error "no quote", 0⟩) := by
  apply decidesOnce_run
  have started : ∀ call ∈ startedIn (sharedRun ⟨.error .decisionConflict, .error "no quote", 0⟩),
      call = sharedBuy ∨ call = sharedExit := by
    rintro call ⟨client, member⟩
    simp only [sharedRun, List.mem_cons, reduceCtorEq, Event.start.injEq, List.not_mem_nil, or_false, false_or] at member
    rcases member with ⟨-, rfl⟩ | ⟨-, rfl⟩
    · exact Or.inl rfl
    · exact Or.inr rfl
  intro first firstMember second secondMember same
  rcases started first firstMember with rfl | rfl <;> rcases started second secondMember with rfl | rfl
  · rfl
  · exact absurd same (by decide)
  · exact absurd same (by decide)
  · rfl

end Callisto.Paper
