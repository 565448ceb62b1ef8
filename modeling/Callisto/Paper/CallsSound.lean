import Callisto.Paper.CallChanges

/-! The invariant of interleaved calls: which locks a call holds, what it has left in the rows of its
account, and that no other call reaches the pair of a call between its two transactions. -/

namespace Callisto.Paper

open Callisto.Library Callisto.Library.Runs

namespace Progress

def call? : Progress → Option Call
  | idle => none
  | reading call => some call
  | locking call _ _ => some call
  | intending call => some call
  | fetching call _ => some call
  | committing call _ _ => some call
  | unlocking call _ => some call
  | ended call _ => some call

def holding : Progress → Option Call
  | intending call => some call
  | fetching call _ => some call
  | committing call _ _ => some call
  | _ => none

def underway : Progress → Option Call
  | fetching call _ => some call
  | committing call _ _ => some call
  | _ => none

def returned : Progress → Option (Call × Decision)
  | unlocking call (.returned decision) => some (call, decision)
  | ended call (.returned decision) => some (call, decision)
  | _ => none

end Progress

/-- The rows of an account can be traced to the calls that wrote them. -/
structure Ledger.Traced (env : Environment) (started : Set Call) (accountId : String) (ledger : Ledger) : Prop where
  decided : ∀ id row, ledger.decisions.get? id = some row →
    ∃ intent, ledger.intents.get? id = some intent ∧ intent.requestHash = row.requestHash
  intended : ∀ id intent, ledger.intents.get? id = some intent →
    ∃ call ∈ started, env.requestHash call = intent.requestHash ∧
      ∀ account decision positionId terms, call = .recordExit account decision positionId terms →
        (ledger.positions.get? positionId).isSome
  kept : ledger.Kept
  costed : ledger.Costed

structure Fits (env : Environment) (started : Set Call) (store : Store) (holder : ℤ → Option ℕ) (client : ℕ)
    (progress : Progress) : Prop where
  begun : ∀ call, progress.call? = some call → call ∈ started
  acquiring : ∀ call acquired todo, progress = .locking call acquired todo →
    acquired ++ todo = call.lockKeys env ∧ ∀ key ∈ acquired, holder key = some client
  holding : ∀ call, progress.holding = some call → ∀ key ∈ call.lockKeys env, holder key = some client
  underway : ∀ call, progress.underway = some call → ∃ ledger, store.get? call.accountId = some ledger ∧
    ledger.decisions.get? call.decisionId = none ∧
    ∃ intent, ledger.intents.get? call.decisionId = some intent ∧ intent.requestHash = env.requestHash call
  returned : ∀ call row, progress.returned = some (call, row) → ∃ ledger, store.get? call.accountId = some ledger ∧
    ledger.decisions.get? call.decisionId = some row ∧ row.requestHash = env.requestHash call
  passive : ∀ account decision opportunity revision resolved prepared,
    progress = .committing (.recordDecision account decision opportunity revision .pass) resolved prepared →
      prepared.quote = none

structure Sound (env : Environment) (started : Set Call) (machine : Machine) : Prop where
  ledgers : ∀ accountId ledger, machine.store.get? accountId = some ledger → ledger.Traced env started accountId
  clients : ∀ client, Fits env started machine.store machine.holder client (machine.calls client)

section
variable {env : Environment} {started : Set Call} {progress : Progress} {machine : Machine} {client : ℕ}
  {holder : ℤ → Option ℕ} {call : Call} {store : Store}

theorem sound_initial : Sound env started Machine.initial where
  ledgers accountId ledger found := by cases found
  clients client := by
    constructor
    all_goals intros
    all_goals simp_all [Machine.initial, Progress.call?, Progress.holding, Progress.underway, Progress.returned]

theorem decisionKey_mem (env : Environment) (call : Call) :
    env.decisionLockKey (call.accountId, call.decisionId) ∈ call.lockKeys env := by
  cases call with
  | recordDecision accountId decisionId opportunityId revision request =>
    simp [Call.lockKeys, Call.locking, LockingCall.lockKeys, Call.accountId, Call.decisionId]
  | recordExit accountId decisionId positionId terms =>
    simp only [Call.lockKeys, Call.locking, LockingCall.lockKeys, Call.accountId, Call.decisionId]
    split_ifs <;> simp

theorem client_unique {client other : ℕ} {progress otherProgress : Progress}
    {call otherCall : Call} (fits : Fits env started store holder client progress)
    (otherFits : Fits env started store holder other otherProgress) (holds : progress.holding = some call)
    (otherHolds : otherProgress.holding = some otherCall) (account : call.accountId = otherCall.accountId)
    (decision : call.decisionId = otherCall.decisionId) : client = other := by
  have mine := fits.holding call holds _ (decisionKey_mem env call)
  have theirs := otherFits.holding otherCall otherHolds _ (decisionKey_mem env otherCall)
  rw [account, decision, theirs] at mine
  exact (Option.some.inj mine).symm

theorem traced_change {ledger next : Ledger} {accountId : String}
    (traced : ledger.Traced env started accountId) (member : call ∈ started)
    (change : call.Change env ledger next) : next.Traced env started accountId := by
  have grows := change.grows
  cases change with
  | same => exact traced
  | intends intent undecided absent hash held =>
    constructor
    · intro id row found
      obtain ⟨old, known, same⟩ := traced.decided id row found
      exact ⟨old, grows.intents id old known, same⟩
    · intro id other found
      by_cases own : call.decisionId = id
      · subst own
        rw [Dict.get?_add_self] at found
        cases found
        exact ⟨call, member, hash.symm, held⟩
      · rw [Dict.get?_add_other absent own] at found
        exact traced.intended id other found
    · exact Ledger.kept_insertIntent traced.kept _
    · exact Ledger.costed_insertIntent traced.costed _
  | decides _ row absent intended commits =>
    obtain ⟨hash, added, others, intents, -⟩ := commits.spec absent
    constructor
    · intro id other found
      by_cases own : call.decisionId = id
      · subst own
        rw [added] at found
        cases found
        obtain ⟨intent, known, same⟩ := intended
        exact ⟨intent, grows.intents _ intent known, same.trans hash.symm⟩
      · rw [others id own] at found
        obtain ⟨old, known, same⟩ := traced.decided id other found
        exact ⟨old, grows.intents id old known, same⟩
    · intro id intent found
      rw [intents] at found
      obtain ⟨inserting, begun, same, held⟩ := traced.intended id intent found
      refine ⟨inserting, begun, same, fun account decision positionId terms exit => ?_⟩
      obtain ⟨position, open_⟩ := Option.isSome_iff_exists.1 (held account decision positionId terms exit)
      rw [grows.positions positionId position open_]
      rfl
    · exact commits.kept traced.kept
    · exact commits.costed traced.costed

theorem Fits.of_store {store next : Store}
    (fits : Fits env started store holder client progress)
    (grows : ∀ accountId ledger, store.get? accountId = some ledger →
      ∃ after, next.get? accountId = some after ∧ ledger.Grows after ∧
        ∀ call, progress.underway = some call → call.accountId = accountId →
          after.decisions.get? call.decisionId = ledger.decisions.get? call.decisionId) :
    Fits env started next holder client progress := by
  refine ⟨fits.begun, fits.acquiring, fits.holding, ?_, ?_, fits.passive⟩
  · intro call between
    obtain ⟨ledger, held, undecided, intent, intended, hash⟩ := fits.underway call between
    obtain ⟨after, found, bigger, same⟩ := grows _ ledger held
    exact ⟨after, found, (same call between rfl).trans undecided, intent, bigger.intents _ intent intended, hash⟩
  · intro call row finished
    obtain ⟨ledger, held, decided, hash⟩ := fits.returned call row finished
    obtain ⟨after, found, bigger, -⟩ := grows _ ledger held
    exact ⟨after, found, bigger.decisions _ row decided, hash⟩

theorem Fits.of_holder {holder next : ℤ → Option ℕ}
    (fits : Fits env started store holder client progress)
    (keeps : ∀ key, holder key = some client → next key = some client) :
    Fits env started store next client progress :=
  ⟨fits.begun, fun call acquired todo locking => ⟨(fits.acquiring call acquired todo locking).1,
      fun key member => keeps key ((fits.acquiring call acquired todo locking).2 key member)⟩,
    fun call holds key member => keeps key (fits.holding call holds key member), fits.underway, fits.returned,
    fits.passive⟩

theorem Sound.goTo (sound : Sound env started machine)
    (fits : Fits env started machine.store machine.holder client progress) :
    Sound env started (machine.goTo client progress) := by
  refine ⟨sound.ledgers, fun other => ?_⟩
  by_cases same : other = client
  · subst same
    simpa [Machine.goTo] using fits
  · simpa [Machine.goTo, same] using sound.clients other

theorem fits_quiet
    (begun : call ∈ started)
    (quiet : progress = .reading call ∨ progress = .ended call .brokenOff ∨
      ∃ error, progress = .unlocking call (.raised error) ∨ progress = .ended call (.raised error)) :
    Fits env started store holder client progress := by
  rcases quiet with rfl | rfl | ⟨error, rfl | rfl⟩
  all_goals
    refine ⟨?_, ?_, ?_, ?_, ?_, ?_⟩
    · intro other same
      cases same
      exact begun
    all_goals intros
    all_goals simp_all [Progress.holding, Progress.underway, Progress.returned]

theorem fits_locking {acquired todo : List ℤ} (begun : call ∈ started)
    (keys : acquired ++ todo = call.lockKeys env) (taken : ∀ key ∈ acquired, holder key = some client) :
    Fits env started store holder client (.locking call acquired todo) := by
  refine ⟨?_, ?_, ?_, ?_, ?_, ?_⟩
  · intro other same
    cases same
    exact begun
  · intro other more rest same
    cases same
    exact ⟨keys, taken⟩
  all_goals
    intros
    contradiction

theorem holding_of_underway (between : progress.underway = some call) :
    progress.holding = some call := by
  cases progress with
  | fetching other resolved => exact between
  | committing other resolved prepared => exact between
  | _ => cases between

theorem Sound.leave (sound : Sound env started machine)
    (fits : Fits env started machine.store (machine.release client).holder client progress) :
    Sound env started ((machine.release client).goTo client progress) := by
  refine ⟨sound.ledgers, fun other => ?_⟩
  by_cases same : other = client
  · subst same
    simpa [Machine.goTo, Machine.release] using fits
  · have kept : Fits env started machine.store (machine.release client).holder other (machine.calls other) := by
      refine (sound.clients other).of_holder fun key held => ?_
      have others : ¬ machine.holder key = some client := by
        rw [held]
        exact fun equal => same (Option.some.inj equal)
      exact (if_neg others).trans held
    simpa [Machine.goTo, Machine.release, same] using kept

theorem Sound.acquire (sound : Sound env started machine) {key : ℤ}
    (free : machine.holder key = none)
    (fits : Fits env started machine.store (Function.update machine.holder key (some client)) client progress) :
    Sound env started
      ({ machine with holder := Function.update machine.holder key (some client) }.goTo client progress) := by
  refine ⟨sound.ledgers, fun other => ?_⟩
  by_cases same : other = client
  · subst same
    simpa [Machine.goTo] using fits
  · have kept : Fits env started machine.store (Function.update machine.holder key (some client)) other
        (machine.calls other) := by
      refine (sound.clients other).of_holder fun taken held => ?_
      have different : taken ≠ key := by
        rintro rfl
        rw [free] at held
        cases held
      rw [Function.update_of_ne different, held]
    simpa [Machine.goTo, same] using kept

theorem Sound.change (sound : Sound env started machine)
    (holds : (machine.calls client).holding = some call) {ledger after : Ledger}
    (held : machine.store.get? call.accountId = some ledger) (member : call ∈ started)
    (change : call.Change env ledger after)
    (fits : Fits env started (machine.store.set call.accountId after) machine.holder client progress) :
    Sound env started ({ machine with store := machine.store.set call.accountId after }.goTo client progress) := by
  constructor
  · intro accountId other found
    simp only [Machine.goTo] at found
    rw [Dict.get?_set] at found
    split_ifs at found with own
    · cases found
      subst own
      exact traced_change (sound.ledgers _ ledger held) member change
    · exact sound.ledgers accountId other found
  · intro other
    by_cases same : other = client
    · subst same
      simpa [Machine.goTo] using fits
    have kept : Fits env started (machine.store.set call.accountId after) machine.holder other
        (machine.calls other) := by
      refine (sound.clients other).of_store fun accountId before found => ?_
      rw [Dict.get?_set]
      by_cases own : call.accountId = accountId
      · subst own
        rw [held] at found
        cases found
        refine ⟨after, if_pos rfl, change.grows, fun otherCall between account => ?_⟩
        apply change.others
        intro decision
        exact same (client_unique (sound.clients other) (sound.clients client) (holding_of_underway between) holds
          account decision.symm)
      · exact ⟨before, by rw [if_neg own, found], before.grows_refl, fun _ _ _ => rfl⟩
    simpa [Machine.goTo, same] using kept

theorem Store.onAccount_ok {α : Type} {store next : Store} {accountId : String} {value : α}
    {act : Ledger → Except ServiceError (Ledger × α)} (changed : store.onAccount accountId act = .ok (next, value)) :
    ∃ ledger after, store.get? accountId = some ledger ∧ act ledger = .ok (after, value) ∧
      next = store.set accountId after := by
  unfold Store.onAccount at changed
  cases found : store.get? accountId with
  | none => simp [found] at changed
  | some ledger =>
    simp only [found] at changed
    obtain ⟨⟨after, inner⟩, acted, result⟩ := map_ok changed
    cases result
    exact ⟨ledger, after, rfl, acted, rfl⟩

theorem fits_proceed (begun : call ∈ started)
    (holds : ∀ key ∈ call.lockKeys env, holder key = some client) (resolved : ResolvedOpportunity)
    (preparation : Preparation)
    (between : ∃ ledger, store.get? call.accountId = some ledger ∧ ledger.decisions.get? call.decisionId = none ∧
      ∃ intent, ledger.intents.get? call.decisionId = some intent ∧ intent.requestHash = env.requestHash call) :
    Fits env started store holder client (call.proceed resolved preparation) := by
  unfold Call.proceed
  cases prepares : call.prepare resolved preparation with
  | error raised => exact fits_quiet begun (Or.inr (Or.inr ⟨raised, Or.inl rfl⟩))
  | ok prepared =>
    simp only
    refine ⟨?_, ?_, ?_, ?_, ?_, ?_⟩
    · intro other same
      cases same
      exact begun
    · intro other acquired todo locking
      cases locking
    · intro other same
      cases same
      exact holds
    · intro other same
      cases same
      exact between
    · intro other row finished
      cases finished
    · intro account decision opportunity revision passResolved passPrepared same
      cases same
      simp only [Call.prepare, Except.ok.injEq] at prepares
      rw [← prepares]
      exact Store.unquoted_pass resolved preparation rfl

theorem fits_returned {row : Decision}
    (begun : call ∈ started)
    (finished : progress = .unlocking call (.returned row) ∨ progress = .ended call (.returned row))
    (decided : ∃ ledger, store.get? call.accountId = some ledger ∧
      ledger.decisions.get? call.decisionId = some row ∧ row.requestHash = env.requestHash call) :
    Fits env started store holder client progress := by
  rcases finished with rfl | rfl
  all_goals
    refine ⟨?_, ?_, ?_, ?_, ?_, ?_⟩
    · intro other same
      cases same
      exact begun
    · intro other acquired todo locking
      cases locking
    · intro other same
      cases same
    · intro other same
      cases same
    · intro other found same
      cases same
      exact decided
    · intro account decision opportunity revision passResolved passPrepared same
      cases same

theorem sound_advance (sound : Sound env started machine) (client : ℕ) (input : Input) :
    Sound env started (machine.advance env client input) := by
  have fits := sound.clients client
  unfold Machine.advance
  cases progress : machine.calls client with
  | idle => exact sound
  | reading call =>
    rw [progress] at fits
    have begun : call ∈ started := fits.begun call rfl
    simp only
    cases read : call.readExisting env machine.store with
    | error raised => exact sound.goTo (fits_quiet begun (Or.inr (Or.inr ⟨raised, Or.inr rfl⟩)))
    | ok found =>
      cases found with
      | some row =>
        refine sound.goTo (fits_returned begun (Or.inr rfl) ?_)
        unfold Call.readExisting at read
        cases known : (machine.store.get? call.accountId).bind fun ledger => ledger.decisions.get? call.decisionId with
        | none => simp [known] at read
        | some existing =>
          simp only [known] at read
          obtain ⟨decision, replayed, same⟩ := map_ok read
          cases same
          obtain ⟨rfl, hash⟩ := replay_ok replayed
          obtain ⟨ledger, held, decided⟩ := Option.bind_eq_some_iff.1 known
          exact ⟨ledger, held, decided, hash⟩
      | none =>
        exact sound.goTo (fits_locking begun rfl fun key member => by cases member)
  | locking call acquired todo =>
    rw [progress] at fits
    have begun : call ∈ started := fits.begun call rfl
    obtain ⟨keys, taken⟩ := fits.acquiring call acquired todo rfl
    cases todo with
    | nil =>
      rw [List.append_nil] at keys
      refine sound.goTo ⟨?_, ?_, ?_, ?_, ?_, ?_⟩
      · intro other same
        cases same
        exact begun
      · intro other acquired todo locking
        cases locking
      · intro other same
        cases same
        rw [← keys]
        exact taken
      · intro other same
        cases same
      · intro other row same
        cases same
      · intro account decision opportunity revision resolved prepared same
        cases same
    | cons key todo =>
      simp only
      cases free : machine.holder key with
      | some holder => exact sound
      | none =>
        refine sound.acquire free (fits_locking begun (by simpa using keys) fun held member => ?_)
        by_cases own : held = key
        · subst own
          exact Function.update_self _ _ _
        · rw [Function.update_of_ne own]
          rcases List.mem_append.1 member with old | new
          · exact taken held old
          · exact absurd (List.mem_singleton.1 new) own
  | intending call =>
    have holds : (machine.calls client).holding = some call := by rw [progress]; rfl
    rw [progress] at fits
    have begun : call ∈ started := fits.begun call rfl
    simp only
    cases acted : machine.store.onAccount call.accountId fun ledger => call.begin env ledger input with
    | error raised => exact sound.goTo (fits_quiet begun (Or.inr (Or.inr ⟨raised, Or.inl rfl⟩)))
    | ok outcome =>
      obtain ⟨store, began⟩ := outcome
      obtain ⟨ledger, after, held, begins, rfl⟩ := Store.onAccount_ok acted
      obtain ⟨change, leaves⟩ := Call.begin_ok begins
      have found : (machine.store.set call.accountId after).get? call.accountId = some after := by
        rw [Dict.get?_set, if_pos rfl]
      cases began with
      | finished row =>
        exact sound.change holds held begun change (fits_returned begun (Or.inl rfl) ⟨after, found, leaves⟩)
      | resumed resolved =>
        exact sound.change holds held begun change
          (fits_proceed begun (fits.holding call rfl) resolved .resumed ⟨after, found, leaves⟩)
      | inserted resolved =>
        refine sound.change holds held begun change ⟨?_, ?_, ?_, ?_, ?_, ?_⟩
        · intro other same
          cases same
          exact begun
        · intro other acquired todo locking
          cases locking
        · intro other same
          cases same
          exact fits.holding call rfl
        · intro other same
          cases same
          exact ⟨after, found, leaves⟩
        · intro other row same
          cases same
        · intro account decision opportunity revision passResolved prepared same
          cases same
  | fetching call resolved =>
    rw [progress] at fits
    exact sound.goTo (fits_proceed (fits.begun call rfl) (fits.holding call rfl) resolved _ (fits.underway call rfl))
  | committing call resolved prepared =>
    have holds : (machine.calls client).holding = some call := by rw [progress]; rfl
    rw [progress] at fits
    have begun : call ∈ started := fits.begun call rfl
    simp only
    cases acted : machine.store.onAccount call.accountId
        fun ledger => call.commit env ledger resolved prepared input.now with
    | error raised => exact sound.goTo (fits_quiet begun (Or.inr (Or.inr ⟨raised, Or.inl rfl⟩)))
    | ok outcome =>
      obtain ⟨store, row⟩ := outcome
      obtain ⟨ledger, after, held, commits, rfl⟩ := Store.onAccount_ok acted
      obtain ⟨known, found, undecided, intended⟩ := fits.underway call rfl
      rw [held] at found
      cases found
      have passive : ∀ account decision opportunity revision,
          call = .recordDecision account decision opportunity revision .pass → prepared.quote = none := by
        rintro account decision opportunity revision rfl
        exact fits.passive account decision opportunity revision resolved prepared rfl
      obtain ⟨change, leaves⟩ := Call.commit_ok undecided intended passive commits
      refine sound.change holds held begun change (fits_returned begun (Or.inl rfl) ⟨after, ?_, leaves⟩)
      rw [Dict.get?_set, if_pos rfl]
  | unlocking call result =>
    rw [progress] at fits
    have begun : call ∈ started := fits.begun call rfl
    cases result with
    | returned row => exact sound.leave (fits_returned begun (Or.inr rfl) (fits.returned call row rfl))
    | raised error => exact sound.leave (fits_quiet begun (Or.inr (Or.inr ⟨error, Or.inr rfl⟩)))
    | brokenOff => exact sound.leave (fits_quiet begun (Or.inr (Or.inl rfl)))
  | ended call result => exact sound

theorem sound_breakOff (sound : Sound env started machine) (client : ℕ) :
    Sound env started (machine.breakOff client) := by
  have fits := sound.clients client
  unfold Machine.breakOff
  cases progress : machine.calls client with
  | idle => exact sound
  | ended call result => exact sound
  | reading call =>
    rw [progress] at fits
    exact sound.goTo (fits_quiet (fits.begun call rfl) (Or.inr (Or.inl rfl)))
  | _ =>
    rw [progress] at fits
    exact sound.leave (fits_quiet (fits.begun _ rfl) (Or.inr (Or.inl rfl)))

end

end Callisto.Paper
