import Callisto.Paper.CallsSound

/-! What one event writes to the database, and the invariant over whole runs. -/

namespace Callisto.Paper

open Callisto.Library Callisto.Library.Runs

def startedIn (events : List Event) : Set Call := {call | ∃ client, Event.start client call ∈ events}

namespace Machine

def reached (env : Environment) (events : List Event) : Machine := run (step env) initial events

def ActsFor (machine : Machine) (accountId decisionId : String) : Event → Prop
  | .advance client _ => ∃ call, (machine.calls client).call? = some call ∧ call.accountId = accountId ∧
      call.decisionId = decisionId
  | _ => False

def Moves (env : Environment) (machine : Machine) (accountId : String) (event : Event) : Prop :=
  ((machine.step env event).store.get? accountId).map Ledger.holdings ≠
    (machine.store.get? accountId).map Ledger.holdings

inductive Writes (env : Environment) (machine : Machine) : Event → Store → Prop
  | nothing (event : Event) : Writes env machine event machine.store
  | creates (accountId name : String) (startingCash : ℤ) (now : Instant) (nonneg : 0 ≤ startingCash)
      (absent : machine.store.get? accountId = none) :
      Writes env machine (.createAccount accountId name startingCash now)
        (machine.store.add accountId (Ledger.create name startingCash now) absent)
  | cancels (accountId orderId cancellationId : String) (now : Instant) (ledger after : Ledger)
      (cancellation : Cancellation) (held : machine.store.get? accountId = some ledger)
      (cancelled : ledger.cancelOrder orderId cancellationId now = .ok (after, cancellation)) :
      Writes env machine (.cancelOrder accountId orderId cancellationId now) (machine.store.set accountId after)
  | changes (client : ℕ) (input : Input) (call : Call) (ledger after : Ledger)
      (holds : (machine.calls client).holding = some call)
      (held : machine.store.get? call.accountId = some ledger) (change : call.Change env ledger after) :
      Writes env machine (.advance client input) (machine.store.set call.accountId after)

end Machine

section
variable {env : Environment} {started : Set Call} {machine : Machine}

theorem writes_advance (sound : Sound env started machine) (client : ℕ) (input : Input) :
    machine.Writes env (.advance client input) (machine.advance env client input).store := by
  have fits := sound.clients client
  unfold Machine.advance
  cases progress : machine.calls client with
  | idle => exact .nothing _
  | reading call =>
    simp only
    cases call.readExisting env machine.store with
    | error raised => exact .nothing _
    | ok found => cases found <;> exact .nothing _
  | locking call acquired todo =>
    cases todo with
    | nil => exact .nothing _
    | cons key todo =>
      simp only
      cases machine.holder key <;> exact .nothing _
  | intending call =>
    simp only
    cases acted : machine.store.onAccount call.accountId fun ledger => call.begin env ledger input with
    | error raised => exact .nothing _
    | ok outcome =>
      obtain ⟨store, began⟩ := outcome
      obtain ⟨ledger, after, held, begins, rfl⟩ := Store.onAccount_ok acted
      have holds : (machine.calls client).holding = some call := by rw [progress]; rfl
      have writes : machine.Writes env (.advance client input) (machine.store.set call.accountId after) :=
        .changes client input call ledger after holds held (Call.begin_ok begins).1
      cases began <;> exact writes
  | fetching call resolved => exact .nothing _
  | committing call resolved prepared =>
    simp only
    cases acted : machine.store.onAccount call.accountId
        fun ledger => call.commit env ledger resolved prepared input.now with
    | error raised => exact .nothing _
    | ok outcome =>
      obtain ⟨store, row⟩ := outcome
      obtain ⟨ledger, after, held, commits, rfl⟩ := Store.onAccount_ok acted
      rw [progress] at fits
      obtain ⟨known, found, undecided, intended⟩ := fits.underway call rfl
      rw [held] at found
      cases found
      have passive : ∀ account decision opportunity revision,
          call = .recordDecision account decision opportunity revision .pass → prepared.quote = none := by
        rintro account decision opportunity revision rfl
        exact fits.passive account decision opportunity revision resolved prepared rfl
      have holds : (machine.calls client).holding = some call := by rw [progress]; rfl
      exact .changes client input call ledger after holds held
        (Call.commit_ok undecided intended passive commits).1
  | unlocking call result => exact .nothing _
  | ended call result => exact .nothing _

theorem breakOff_store (machine : Machine) (client : ℕ) : (machine.breakOff client).store = machine.store := by
  unfold Machine.breakOff
  cases machine.calls client <;> rfl

theorem writes_step (sound : Sound env started machine) (event : Event) :
    machine.Writes env event (machine.step env event).store := by
  cases event with
  | createAccount accountId name startingCash now =>
    simp only [Machine.step, Store.step]
    cases created : machine.store.apply env.names (.createAccount accountId name startingCash now) with
    | error raised => exact .nothing _
    | ok next =>
      change machine.store.createAccount accountId name startingCash now = .ok next at created
      unfold Store.createAccount at created
      split_ifs at created with unnamed negative absent taken
      cases created
      exact .creates accountId name startingCash now (not_lt.1 negative) absent
  | cancelOrder accountId orderId cancellationId now =>
    simp only [Machine.step, Store.step]
    cases applied : machine.store.apply env.names (.cancelOrder accountId orderId cancellationId now) with
    | error raised => exact .nothing _
    | ok next =>
      obtain ⟨⟨store, cancellation⟩, acted, same⟩ := map_ok applied
      cases same
      obtain ⟨ledger, after, held, cancelled, rfl⟩ := Store.onAccount_ok acted
      exact .cancels accountId orderId cancellationId now ledger after cancellation held cancelled
  | start client call =>
    simp only [Machine.step]
    cases machine.calls client <;> exact .nothing _
  | advance client input => exact writes_advance sound client input
  | breakOff client =>
    have same : (machine.step env (.breakOff client)).store = machine.store := breakOff_store machine client
    rw [same]
    exact .nothing _

theorem Ledger.cancelOrder_rows {ledger after : Ledger} {orderId cancellationId : String} {now : Instant}
    {cancellation : Cancellation} (cancelled : ledger.cancelOrder orderId cancellationId now = .ok (after, cancellation)) :
    after.decisions = ledger.decisions ∧ after.intents = ledger.intents ∧ after.positions = ledger.positions := by
  rcases Ledger.cancelOrder_ok cancelled with rfl | ⟨order, events, absent, -, -, -, -, -, rfl⟩
  · exact ⟨rfl, rfl, rfl⟩
  · exact ⟨rfl, rfl, rfl⟩

theorem Ledger.cancelOrder_grows {ledger after : Ledger} {orderId cancellationId : String} {now : Instant}
    {cancellation : Cancellation} (cancelled : ledger.cancelOrder orderId cancellationId now = .ok (after, cancellation)) :
    ledger.Grows after := by
  obtain ⟨decisions, intents, positions⟩ := Ledger.cancelOrder_rows cancelled
  refine ⟨?_, ?_, ?_⟩
  · rw [decisions]
    exact fun _ _ => id
  · rw [intents]
    exact fun _ _ => id
  · rw [positions]
    exact fun _ _ => id

theorem call_of_holding {progress : Progress} {call : Call} (holds : progress.holding = some call) :
    progress.call? = some call := by
  cases progress with
  | intending other => exact holds
  | fetching other resolved => exact holds
  | committing other resolved prepared => exact holds
  | _ => cases holds

theorem Machine.Writes.grows {event : Event} {next : Store} (writes : machine.Writes env event next)
    {accountId : String} {ledger : Ledger} (found : machine.store.get? accountId = some ledger) :
    ∃ after, next.get? accountId = some after ∧ ledger.Grows after ∧
      ∀ decisionId, ¬ machine.ActsFor accountId decisionId event →
        after.decisions.get? decisionId = ledger.decisions.get? decisionId := by
  cases writes with
  | nothing => exact ⟨ledger, found, ledger.grows_refl, fun _ _ => rfl⟩
  | creates created name startingCash now nonneg absent =>
    exact ⟨ledger, Dict.get?_add_of_some absent found, ledger.grows_refl, fun _ _ => rfl⟩
  | cancels owner orderId cancellationId now before after cancellation held cancelled =>
    rw [Dict.get?_set]
    by_cases own : owner = accountId
    · subst own
      rw [held] at found
      cases found
      exact ⟨after, if_pos rfl, Ledger.cancelOrder_grows cancelled,
        fun _ _ => by rw [(Ledger.cancelOrder_rows cancelled).1]⟩
    · exact ⟨ledger, by rw [if_neg own, found], ledger.grows_refl, fun _ _ => rfl⟩
  | changes client input call before after holds held change =>
    rw [Dict.get?_set]
    by_cases own : call.accountId = accountId
    · subst own
      rw [held] at found
      cases found
      refine ⟨after, if_pos rfl, change.grows, fun decisionId foreign => change.others fun same => foreign ?_⟩
      exact ⟨call, call_of_holding holds, rfl, same⟩
    · exact ⟨ledger, by rw [if_neg own, found], ledger.grows_refl, fun _ _ => rfl⟩

theorem sound_createAccount (sound : Sound env started machine) {accountId name : String} {startingCash : ℤ}
    {now : Instant} (nonneg : 0 ≤ startingCash) (absent : machine.store.get? accountId = none) :
    Sound env started
      { machine with store := machine.store.add accountId (Ledger.create name startingCash now) absent } := by
  constructor
  · intro other ledger found
    simp only at found
    rw [Dict.get?_add] at found
    split_ifs at found with own
    · cases found
      refine ⟨?_, ?_, Ledger.kept_create nonneg now, Ledger.costed_create name startingCash now⟩
      · intro id row decided
        cases decided
      · intro id intent intended
        cases intended
    · exact sound.ledgers other ledger found
  · intro client
    apply (sound.clients client).of_store
    intro other ledger found
    exact ⟨ledger, Dict.get?_add_of_some absent found, ledger.grows_refl, fun _ _ _ => rfl⟩

theorem sound_cancelOrder (sound : Sound env started machine) {accountId orderId cancellationId : String}
    {now : Instant} {ledger after : Ledger} {cancellation : Cancellation}
    (held : machine.store.get? accountId = some ledger)
    (cancelled : ledger.cancelOrder orderId cancellationId now = .ok (after, cancellation)) :
    Sound env started { machine with store := machine.store.set accountId after } := by
  obtain ⟨decisions, intents, positions⟩ := Ledger.cancelOrder_rows cancelled
  have traced := sound.ledgers accountId ledger held
  have grows := Ledger.cancelOrder_grows cancelled
  constructor
  · intro other found known
    simp only at known
    rw [Dict.get?_set] at known
    split_ifs at known with own
    · cases known
      subst own
      refine ⟨?_, ?_, Ledger.kept_cancelOrder traced.kept cancelled, Ledger.costed_cancelOrder traced.costed cancelled⟩
      · rw [decisions, intents]
        exact traced.decided
      · rw [intents, positions]
        exact traced.intended
    · exact sound.ledgers other found known
  · intro client
    apply (sound.clients client).of_store
    intro other found known
    rw [Dict.get?_set]
    by_cases own : accountId = other
    · subst own
      rw [held] at known
      cases known
      exact ⟨after, if_pos rfl, grows, fun _ _ _ => by rw [decisions]⟩
    · exact ⟨found, by rw [if_neg own, known], found.grows_refl, fun _ _ _ => rfl⟩

theorem sound_step (sound : Sound env started machine) (event : Event)
    (starts : ∀ client call, event = .start client call → call ∈ started) :
    Sound env started (machine.step env event) := by
  have writes := writes_step sound event
  cases event with
  | createAccount accountId name startingCash now =>
    simp only [Machine.step] at writes ⊢
    generalize machine.store.step env.names (.createAccount accountId name startingCash now) = next at writes ⊢
    cases writes with
    | nothing => exact sound
    | creates _ _ _ _ nonneg absent => exact sound_createAccount sound nonneg absent
  | cancelOrder accountId orderId cancellationId now =>
    simp only [Machine.step] at writes ⊢
    generalize machine.store.step env.names (.cancelOrder accountId orderId cancellationId now) = next at writes ⊢
    cases writes with
    | nothing => exact sound
    | cancels _ _ _ _ ledger after cancellation held cancelled => exact sound_cancelOrder sound held cancelled
  | start client call =>
    simp only [Machine.step]
    cases machine.calls client with
    | idle => exact sound.goTo (fits_quiet (starts client call rfl) (Or.inl rfl))
    | _ => exact sound
  | advance client input => exact sound_advance sound client input
  | breakOff client => exact sound_breakOff sound client

theorem sound_run (env : Environment) {started : Set Call} :
    ∀ {machine : Machine}, Sound env started machine → ∀ events, startedIn events ⊆ started →
      Sound env started (run (Machine.step env) machine events)
  | _, sound, [], _ => sound
  | machine, sound, event :: rest, starts => by
    apply sound_run env (sound_step sound event _) rest
    · rintro call ⟨client, member⟩
      exact starts ⟨client, List.mem_cons_of_mem _ member⟩
    · rintro client call rfl
      exact starts ⟨client, List.mem_cons_self⟩

theorem sound_reached (env : Environment) {events : List Event} {started : Set Call}
    (starts : startedIn events ⊆ started) : Sound env started (Machine.reached env events) :=
  sound_run env sound_initial events starts

end

end Callisto.Paper
