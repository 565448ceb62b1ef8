import Callisto.Library.Dict
import Callisto.Library.Runs

/-! The durable key/value state of a strategy: a cache with a set of dirty keys, and flushes that write it to a table and may
overlap with each other and with the strategy's writes. -/

namespace Callisto.Strategies

open Callisto.Library Callisto.Library.Runs

/-- A call of `flush` between its reading of the dirty keys and its end: the keys, the cache as it was read, and whether the
transaction has been committed. -/
structure Flight (ν : Type) where
  keys : List String
  values : Dict String ν
  committed : Bool := false

def Flight.toUpsert {ν : Type} (flight : Flight ν) : List (String × ν) :=
  flight.keys.filterMap fun key => (flight.values.get? key).map fun value => (key, value)

def Flight.toDelete {ν : Type} (flight : Flight ν) : List String := flight.keys.filter fun key => (flight.values.get? key).isNone

/-- The upsert and then the delete, as they stand in the table after the commit. -/
def Flight.write {ν : Type} (flight : Flight ν) (table : Dict String ν) : Dict String ν :=
  flight.toDelete.foldl Dict.erase (flight.toUpsert.foldl (fun rows row => rows.set row.1 row.2) table)

/-- The state of one instance, the rows of its strategy in the table, and the calls of `flush` that have not ended. -/
structure PersistentState (ν : Type) where
  cache : Dict String ν
  dirty : List String
  table : Dict String ν
  flights : Dict ℕ (Flight ν)

/-- What happens at one time: a call of the strategy, or an `await` of a flush that returns or raises. -/
inductive Event (ν : Type) where
  | set (key : String) (value : ν)
  | delete (key : String)
  | flush (call : ℕ)
  | commit (call : ℕ)
  | finish (call : ℕ)
  | fail (call : ℕ)

def Event.Writes {ν : Type} : Event ν → Prop
  | .set _ _ => True
  | .delete _ => True
  | _ => False

namespace PersistentState

variable {ν : Type}

/-- `load`: the cache is the rows of the table. -/
def load (table : Dict String ν) : PersistentState ν where
  cache := table
  dirty := []
  table := table
  flights := .empty

/-- `_dirty.add` -/
def mark (dirty : List String) (key : String) : List String := if key ∈ dirty then dirty else dirty ++ [key]

def set (state : PersistentState ν) (key : String) (value : ν) : PersistentState ν :=
  if key = "" then state else { state with cache := state.cache.set key value, dirty := mark state.dirty key }

def delete (state : PersistentState ν) (key : String) : PersistentState ν :=
  if key = "" then state else { state with cache := state.cache.erase key, dirty := mark state.dirty key }

/-- The call up to its first `await`; with nothing dirty it has returned. -/
def flush (state : PersistentState ν) (call : ℕ) : PersistentState ν :=
  if state.dirty = [] ∨ (state.flights.get? call).isSome then state
  else { state with flights := state.flights.set call { keys := state.dirty, values := state.cache } }

def commit (state : PersistentState ν) (call : ℕ) : PersistentState ν :=
  match state.flights.get? call with
  | none => state
  | some flight =>
    if flight.committed then state
    else { state with table := flight.write state.table, flights := state.flights.set call { flight with committed := true } }

/-- A call whose session has closed after its commit clears the dirty set. -/
def finish (state : PersistentState ν) (call : ℕ) : PersistentState ν :=
  match state.flights.get? call with
  | none => state
  | some flight => if flight.committed then { state with dirty := [], flights := state.flights.erase call } else state

def fail (state : PersistentState ν) (call : ℕ) : PersistentState ν := { state with flights := state.flights.erase call }

def step (state : PersistentState ν) : Event ν → PersistentState ν
  | .set key value => state.set key value
  | .delete key => state.delete key
  | .flush call => state.flush call
  | .commit call => state.commit call
  | .finish call => state.finish call
  | .fail call => state.fail call

def Covered (state : PersistentState ν) : Prop := ∀ key, state.cache.get? key ≠ state.table.get? key → key ∈ state.dirty

/-- A commit writes a key that another call has cleared from the dirty set only as the cache has it, and a call clears the set
only when the cache has each dirty key as the table has it. -/
def Quiet (state : PersistentState ν) : Event ν → Prop
  | .commit call => ∀ flight, state.flights.get? call = some flight → flight.committed = false →
      ∀ key ∈ flight.keys, key ∉ state.dirty → state.cache.get? key = flight.values.get? key
  | .finish call => ∀ flight, state.flights.get? call = some flight → flight.committed = true →
      ∀ key ∈ state.dirty, state.cache.get? key = state.table.get? key
  | _ => True

/-- What a run owes the strategy: in every state the cache is covered; a call that starts behind the last write and commits makes
the table equal to the cache; a call that fails leaves the dirty keys and the cache; and one that finds nothing dirty does nothing. -/
structure LosesNoWrite (start : PersistentState ν) (events : List (Event ν)) : Prop where
  covered : Always step Covered start events
  settles : ∀ before calm call flight, before ++ .flush call :: (calm ++ [.commit call]) <+: events →
    (run step start before).flights.get? call = none → (∀ event ∈ calm, ¬ event.Writes) →
      (run step start (before ++ .flush call :: calm)).flights.get? call = some flight → flight.committed = false →
        ∀ key, (run step start (before ++ .flush call :: (calm ++ [.commit call]))).table.get? key =
          (run step start (before ++ .flush call :: (calm ++ [.commit call]))).cache.get? key
  failed : ∀ before call, before ++ [.fail call] <+: events →
    (run step start (before ++ [.fail call])).dirty = (run step start before).dirty ∧
      (run step start (before ++ [.fail call])).cache = (run step start before).cache
  clean : ∀ before call, before ++ [.flush call] <+: events → (run step start before).dirty = [] →
    run step start (before ++ [.flush call]) = run step start before

variable {state : PersistentState ν} {key : String} {call : ℕ} {flight : Flight ν}

theorem mem_mark {dirty : List String} {other : String} : other ∈ mark dirty key ↔ other ∈ dirty ∨ other = key := by
  unfold mark
  split
  case isTrue known =>
    constructor
    · exact Or.inl
    · intro either
      cases either with
      | inl old => exact old
      | inr same => exact same ▸ known
  case isFalse => simp

theorem get?_write (flight : Flight ν) (table : Dict String ν) (key : String) :
    (flight.write table).get? key = if key ∈ flight.keys then flight.values.get? key else table.get? key := by
  have agree : ∀ row ∈ flight.toUpsert, flight.values.get? row.1 = some row.2 := by
    intro row member
    have ⟨found, _, same⟩ := List.mem_filterMap.1 member
    have ⟨value, read, pair⟩ := Option.map_eq_some_iff.1 same
    rw [← pair, read]
  have upserted : key ∈ flight.toUpsert.map Prod.fst ↔ key ∈ flight.keys ∧ (flight.values.get? key).isSome := by
    simp only [Flight.toUpsert, List.mem_map, List.mem_filterMap, Option.map_eq_some_iff, Option.isSome_iff_exists]
    grind
  have deleted : key ∈ flight.toDelete ↔ key ∈ flight.keys ∧ (flight.values.get? key).isNone := List.mem_filter
  rw [Flight.write, Dict.get?_foldl_erase, Dict.get?_foldl_set agree]
  simp only [upserted, deleted]
  cases flight.values.get? key <;> simp

theorem commit_of_pending (found : state.flights.get? call = some flight) (pending : flight.committed = false) :
    state.commit call = { state with table := flight.write state.table, flights := state.flights.set call { flight with committed := true } } := by
  simp [commit, found, pending]

theorem finish_of_committed (found : state.flights.get? call = some flight) (done : flight.committed = true) :
    state.finish call = { state with dirty := [], flights := state.flights.erase call } := by
  simp [finish, found, done]

theorem commit_cases (state : PersistentState ν) (call : ℕ) :
    state.commit call = state ∨ ∃ flight, state.flights.get? call = some flight ∧ flight.committed = false := by
  cases found : state.flights.get? call with
  | none => simp [commit, found]
  | some flight =>
    cases pending : flight.committed with
    | true => simp [commit, found, pending]
    | false => exact Or.inr ⟨flight, rfl, pending⟩

theorem finish_cases (state : PersistentState ν) (call : ℕ) :
    state.finish call = state ∨ ∃ flight, state.flights.get? call = some flight ∧ flight.committed = true := by
  cases found : state.flights.get? call with
  | none => simp [finish, found]
  | some flight =>
    cases pending : flight.committed with
    | false => simp [finish, found, pending]
    | true => exact Or.inr ⟨flight, rfl, pending⟩

theorem covered_load (table : Dict String ν) : (load table).Covered := fun _ differs => absurd rfl differs

theorem covered_set (covered : state.Covered) (key : String) (value : ν) : (state.set key value).Covered := by
  unfold set
  split
  case isTrue => exact covered
  case isFalse =>
    intro other differs
    rw [mem_mark]
    by_cases same : key = other
    · exact Or.inr same.symm
    · rw [Dict.get?_set, if_neg same] at differs
      exact Or.inl (covered other differs)

theorem covered_delete (covered : state.Covered) (key : String) : (state.delete key).Covered := by
  unfold delete
  split
  case isTrue => exact covered
  case isFalse =>
    intro other differs
    rw [mem_mark]
    by_cases same : key = other
    · exact Or.inr same.symm
    · rw [Dict.get?_erase, if_neg same] at differs
      exact Or.inl (covered other differs)

theorem flush_fields (state : PersistentState ν) (call : ℕ) :
    (state.flush call).cache = state.cache ∧ (state.flush call).dirty = state.dirty ∧ (state.flush call).table = state.table := by
  unfold flush
  split <;> exact ⟨rfl, rfl, rfl⟩

theorem covered_commit_iff (covered : state.Covered) (call : ℕ) : (state.commit call).Covered ↔ state.Quiet (.commit call) := by
  cases commit_cases state call with
  | inl same =>
    rw [same]
    constructor
    · intro _ flight found pending
      have moved := congrArg PersistentState.flights (commit_of_pending found pending)
      have entry := congrArg (fun flights => flights.get? call) moved
      rw [same] at entry
      simp only [Dict.get?_set, if_true, found, Option.some_inj] at entry
      have flag := congrArg Flight.committed entry
      rw [pending] at flag
      cases flag
    · exact fun _ => covered
  | inr pending =>
    obtain ⟨flight, found, pending⟩ := pending
    rw [commit_of_pending found pending]
    unfold Covered
    simp only [get?_write]
    constructor
    · intro after other found_other _ key written clean
      rw [found, Option.some_inj] at found_other
      subst found_other
      by_contra differs
      exact clean (after key (by rwa [if_pos written]))
    · intro quiet key differs
      by_cases written : key ∈ flight.keys
      · rw [if_pos written] at differs
        by_contra clean
        exact differs (quiet flight found pending key written clean)
      · rw [if_neg written] at differs
        exact covered key differs

theorem covered_finish_iff (covered : state.Covered) (call : ℕ) : (state.finish call).Covered ↔ state.Quiet (.finish call) := by
  cases finish_cases state call with
  | inl same =>
    rw [same]
    constructor
    · intro _ flight found done
      have moved := congrArg PersistentState.flights (finish_of_committed found done)
      have entry := congrArg (fun flights => flights.get? call) moved
      rw [same] at entry
      simp [Dict.get?_erase, found] at entry
    · exact fun _ => covered
  | inr committed =>
    obtain ⟨flight, found, done⟩ := committed
    rw [finish_of_committed found done]
    unfold Covered
    constructor
    · intro after _ _ _ key _
      by_contra differs
      exact List.not_mem_nil (after key differs)
    · intro quiet key differs
      exact absurd (quiet flight found done key (covered key differs)) differs

theorem covered_step_iff (event : Event ν) (covered : state.Covered) : (state.step event).Covered ↔ state.Quiet event := by
  cases event with
  | set key value => exact iff_of_true (covered_set covered key value) trivial
  | delete key => exact iff_of_true (covered_delete covered key) trivial
  | flush call =>
    have ⟨cache, dirty, table⟩ := flush_fields state call
    have after : (state.flush call).Covered := by
      unfold Covered
      rw [cache, dirty, table]
      exact covered
    exact iff_of_true after trivial
  | commit call => exact covered_commit_iff covered call
  | finish call => exact covered_finish_iff covered call
  | fail call => exact iff_of_true covered trivial

/-- A pending call has read the cache as it is, with all that is dirty. -/
def UpToDate (state : PersistentState ν) (call : ℕ) : Prop :=
  ∀ flight, state.flights.get? call = some flight →
    (∀ key, flight.values.get? key = state.cache.get? key) ∧ ∀ key ∈ state.dirty, key ∈ flight.keys

theorem upToDate_flush (fresh : state.flights.get? call = none) : (state.flush call).UpToDate call := by
  intro flight found
  unfold flush at found ⊢
  by_cases idle : state.dirty = [] ∨ (state.flights.get? call).isSome
  · rw [if_pos idle, fresh] at found
    cases found
  · rw [if_neg idle] at found ⊢
    rw [Dict.get?_set, if_pos rfl, Option.some_inj] at found
    subst found
    exact ⟨fun _ => rfl, fun _ member => member⟩

theorem upToDate_step (held : state.UpToDate call) {event : Event ν} (calm : ¬ event.Writes) : (state.step event).UpToDate call := by
  intro flight found
  cases event with
  | set key value => exact absurd trivial calm
  | delete key => exact absurd trivial calm
  | flush other =>
    obtain ⟨cache, dirty, _⟩ := flush_fields state other
    change (state.flush other).flights.get? call = some flight at found
    change (∀ key, flight.values.get? key = (state.flush other).cache.get? key) ∧ ∀ key ∈ (state.flush other).dirty, key ∈ flight.keys
    rw [cache, dirty]
    unfold flush at found
    split at found
    · exact held flight found
    · rw [Dict.get?_set] at found
      split at found
      · cases found
        exact ⟨fun _ => rfl, fun _ member => member⟩
      · exact held flight found
  | commit other =>
    change (state.commit other).flights.get? call = some flight at found
    change (∀ key, flight.values.get? key = (state.commit other).cache.get? key) ∧ ∀ key ∈ (state.commit other).dirty, key ∈ flight.keys
    cases commit_cases state other with
    | inl same =>
      rw [same] at found ⊢
      exact held flight found
    | inr pending =>
      obtain ⟨older, known, pending⟩ := pending
      rw [commit_of_pending known pending] at found ⊢
      rw [Dict.get?_set] at found
      split at found
      case isTrue same =>
        cases found
        exact held older (same ▸ known)
      case isFalse => exact held flight found
  | finish other =>
    change (state.finish other).flights.get? call = some flight at found
    change (∀ key, flight.values.get? key = (state.finish other).cache.get? key) ∧ ∀ key ∈ (state.finish other).dirty, key ∈ flight.keys
    cases finish_cases state other with
    | inl same =>
      rw [same] at found ⊢
      exact held flight found
    | inr committed =>
      obtain ⟨older, known, done⟩ := committed
      rw [finish_of_committed known done] at found ⊢
      rw [Dict.get?_erase] at found
      split at found
      · cases found
      · exact ⟨(held flight found).1, fun _ member => absurd member List.not_mem_nil⟩
  | fail other =>
    change (state.flights.erase other).get? call = some flight at found
    rw [Dict.get?_erase] at found
    split at found
    · cases found
    · exact held flight found

theorem upToDate_run (held : state.UpToDate call) {calm : List (Event ν)} (quiet : ∀ event ∈ calm, ¬ event.Writes) :
    (run step state calm).UpToDate call := by
  induction calm generalizing state with
  | nil => exact held
  | cons event rest ih =>
    exact ih (upToDate_step held (quiet event List.mem_cons_self)) fun other member => quiet other (List.mem_cons_of_mem _ member)

theorem synced_commit (covered : state.Covered) (current : state.UpToDate call) (found : state.flights.get? call = some flight)
    (pending : flight.committed = false) (key : String) : (state.commit call).table.get? key = (state.commit call).cache.get? key := by
  have ⟨same, all⟩ := current flight found
  rw [commit_of_pending found pending, get?_write]
  by_cases written : key ∈ flight.keys
  · rw [if_pos written, same]
  · rw [if_neg written]
    by_contra differs
    exact written (all key (covered key (Ne.symm differs)))

/-- While a flush has not ended, there is no write and no other flush. -/
def Undisturbed (state : PersistentState ν) (event : Event ν) : Prop :=
  (∃ call flight, state.flights.get? call = some flight) → ¬ event.Writes ∧ ∀ call, event ≠ .flush call

/-- The one flush under way has read the cache and the dirty keys as they are, and once it is committed the table has them. -/
structure Alone (state : PersistentState ν) : Prop where
  one : ∀ call other flight another, state.flights.get? call = some flight → state.flights.get? other = some another → call = other
  current : ∀ call flight, state.flights.get? call = some flight → flight.values = state.cache ∧ flight.keys = state.dirty
  written : ∀ call flight, state.flights.get? call = some flight → flight.committed = true →
    ∀ key ∈ flight.keys, state.cache.get? key = state.table.get? key

theorem Alone.of_idle (idle : ∀ call, state.flights.get? call = none) : state.Alone := by
  constructor
  · intro call other flight another found
    rw [idle call] at found
    cases found
  · intro call flight found
    rw [idle call] at found
    cases found
  · intro call flight found
    rw [idle call] at found
    cases found

theorem Alone.of_single (only : ∀ other another, state.flights.get? other = some another → other = call ∧ another = flight)
    (current : flight.values = state.cache ∧ flight.keys = state.dirty)
    (written : flight.committed = true → ∀ key ∈ flight.keys, state.cache.get? key = state.table.get? key) : state.Alone := by
  constructor
  · intro first second one another found known
    rw [(only first one found).1, (only second another known).1]
  · intro other another found
    exact (only other another found).2 ▸ current
  · intro other another found
    exact (only other another found).2 ▸ written

theorem Alone.erase (alone : state.Alone) (call : ℕ) : ({ state with flights := state.flights.erase call } : PersistentState ν).Alone := by
  have kept : ∀ other flight, (state.flights.erase call).get? other = some flight → state.flights.get? other = some flight := by
    intro other flight found
    rw [Dict.get?_erase] at found
    split at found
    · cases found
    · exact found
  constructor
  · intro first second flight another found known
    exact alone.one first second flight another (kept first flight found) (kept second another known)
  · intro other flight found
    exact alone.current other flight (kept other flight found)
  · intro other flight found
    exact alone.written other flight (kept other flight found)

theorem Alone.step (alone : state.Alone) {event : Event ν} (undisturbed : state.Undisturbed event) : (state.step event).Alone := by
  have idle (calm : event.Writes ∨ ∃ call, event = .flush call) (call : ℕ) : state.flights.get? call = none := by
    cases found : state.flights.get? call with
    | none => rfl
    | some flight =>
      obtain ⟨quiet, none_⟩ := undisturbed ⟨call, flight, found⟩
      cases calm with
      | inl writes => exact absurd writes quiet
      | inr starts => exact absurd starts.choose_spec (none_ _)
  cases event with
  | set key value =>
    change (state.set key value).Alone
    unfold PersistentState.set
    split
    · exact alone
    · exact .of_idle (idle (.inl trivial))
  | delete key =>
    change (state.delete key).Alone
    unfold PersistentState.delete
    split
    · exact alone
    · exact .of_idle (idle (.inl trivial))
  | flush call =>
    change (state.flush call).Alone
    unfold PersistentState.flush
    split
    · exact alone
    · have only : ∀ other flight, (state.flights.set call { keys := state.dirty, values := state.cache }).get? other = some flight →
          other = call ∧ flight = { keys := state.dirty, values := state.cache } := by
        intro other flight found
        rw [Dict.get?_set] at found
        split at found
        case isTrue same => exact ⟨same.symm, (Option.some.inj found).symm⟩
        case isFalse =>
          rw [idle (.inr ⟨call, rfl⟩) other] at found
          cases found
      exact .of_single only ⟨rfl, rfl⟩ fun done => absurd done Bool.false_ne_true
  | commit call =>
    change (state.commit call).Alone
    cases commit_cases state call with
    | inl same =>
      rw [same]
      exact alone
    | inr pending =>
      obtain ⟨flight, known, open_⟩ := pending
      obtain ⟨values, keys⟩ := alone.current call flight known
      rw [commit_of_pending known open_]
      have only : ∀ other later, (state.flights.set call { flight with committed := true }).get? other = some later →
          other = call ∧ later = { flight with committed := true } := by
        intro other later found
        rw [Dict.get?_set] at found
        split at found
        case isTrue same => exact ⟨same.symm, (Option.some.inj found).symm⟩
        case isFalse differs => exact absurd (alone.one call other flight later known found) differs
      refine .of_single only ⟨values, keys⟩ fun _ key member => ?_
      rw [get?_write, if_pos member, values]
  | finish call =>
    change (state.finish call).Alone
    cases finish_cases state call with
    | inl same =>
      rw [same]
      exact alone
    | inr committed =>
      obtain ⟨flight, known, done⟩ := committed
      rw [finish_of_committed known done]
      apply Alone.of_idle
      intro other
      rw [Dict.get?_erase]
      split
      case isTrue => rfl
      case isFalse differs =>
        cases found : state.flights.get? other with
        | none => rfl
        | some another => exact absurd (alone.one call other flight another known found) differs
  | fail call => exact alone.erase call

/-- A run whose flushes are undisturbed is quiet. -/
theorem quiet_of_undisturbed {table : Dict String ν} {events : List (Event ν)}
    (undisturbed : Meets PersistentState.step Undisturbed (load table) events) :
    Meets PersistentState.step Quiet (load table) events := by
  have keeps : ∀ (state : PersistentState ν) event, state.Alone → state.Undisturbed event → (state.step event).Alone :=
    fun _ _ alone undisturbed => alone.step undisturbed
  refine Meets.imp keeps ?_ (.of_idle fun _ => rfl) undisturbed
  intro state event alone _
  cases event with
  | commit call =>
    intro flight found _ key _ _
    rw [(alone.current call flight found).1]
  | finish call =>
    intro flight found done key member
    rw [← (alone.current call flight found).2] at member
    exact alone.written call flight found done key member
  | set => trivial
  | delete => trivial
  | flush => trivial
  | fail => trivial

/-- A run from the loaded state loses no write exactly if each of its steps is quiet. -/
theorem losesNoWrite_iff (table : Dict String ν) (events : List (Event ν)) :
    LosesNoWrite (load table) events ↔ Meets step Quiet (load table) events := by
  have exact_run : Always step Covered (load table) events ↔ Meets step Quiet (load table) events :=
    @always_iff_meets (PersistentState ν) (Event ν) step Quiet (fun _ => True) Covered (fun _ _ held => held)
      (fun _ event _ covered => covered_step_iff event covered) (load table) events trivial (covered_load table)
  constructor
  · intro safe
    exact exact_run.1 safe.covered
  · intro meets
    have always := exact_run.2 meets
    constructor
    case covered => exact always
    case settles =>
      intro before calm call flight inside fresh quiet found pending
      have part : before ++ .flush call :: calm <+: events := by
        apply List.IsPrefix.trans _ inside
        exact ⟨[.commit call], by rw [List.append_assoc, List.cons_append]⟩
      have covered := always _ part
      rw [run_append, run_cons] at covered found
      have current : (run step ((run step (load table) before).step (.flush call)) calm).UpToDate call :=
        upToDate_run (upToDate_flush fresh) quiet
      rw [run_append, run_cons, run_append, run_cons, run_nil]
      exact synced_commit covered current found pending
    case failed =>
      intro before call _
      rw [run_append, run_cons, run_nil]
      exact ⟨rfl, rfl⟩
    case clean =>
      intro before call _ nothing
      rw [run_append, run_cons, run_nil, step, flush, if_pos (Or.inl nothing)]

/-- A key is written again while the flush of its first value is under way. -/
def writtenMeanwhile : List (Event ℕ) := [.set "k" 1, .flush 0, .set "k" 2, .commit 0, .finish 0]

/-- The second value is in the cache only, and no key is dirty. -/
theorem writtenMeanwhile_loses : ¬ LosesNoWrite (load (.empty : Dict String ℕ)) writtenMeanwhile := by
  intro safe
  have covered := safe.covered writtenMeanwhile List.prefix_rfl "k"
  revert covered
  decide

end PersistentState

end Callisto.Strategies
