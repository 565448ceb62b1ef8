import Callisto.Portfolio.Projection

/-! A projection id that is synchronized again gets the stored attempt back. A call whose sweep raised has answered something else. -/

namespace Callisto.Portfolio.Projection

open Callisto.Library Callisto.Library.Runs
open Callisto.Ws (strip)

variable {π : Type} {hash : Evidence π → String} {store : Store π} {system : Deployment π}

theorem get?_add (store : Store π) (key other : String × String) (attempt : Attempt π) :
    (store.add key attempt).attempts.get? other = if key = other then some attempt else store.attempts.get? other :=
  store.attempts.get?_set key other attempt

def Keeps (store later : Store π) : Prop :=
  ∀ key attempt, store.attempts.get? key = some attempt → later.attempts.get? key = some attempt

theorem keeps_refl (store : Store π) : Keeps store store := fun _ _ found => found

theorem keeps_add {key : String × String} (absent : store.attempts.get? key = none) (attempt : Attempt π) :
    Keeps store (store.add key attempt) := by
  intro other held found
  have different : key ≠ other := by
    intro same
    rw [same, found] at absent
    cases absent
  rw [get?_add, if_neg different, found]

inductive Finishes (hash : Evidence π → String) (store : Store π) (flight : Flight) (readings : Readings π) (completedAt : ℤ) :
    Result → Store π → Prop
  | replayed (coverage : Coverage) (returned : readings.sweep = .ok coverage) (existing : Attempt π)
      (found : store.attempts.get? flight.key = some existing) :
      Finishes hash store flight readings completedAt (storedResult flight.key existing) store
  | committed (coverage : Coverage) (returned : readings.sweep = .ok coverage) (absent : store.attempts.get? flight.key = none) :
      Finishes hash store flight readings completedAt (storedResult flight.key (attemptOf hash flight coverage readings completedAt))
        (store.add flight.key (attemptOf hash flight coverage readings completedAt))
  | superseded (exception : String) (raised : readings.sweep = .error exception) (existing : Attempt π)
      (found : store.attempts.get? flight.key = some existing) :
      Finishes hash store flight readings completedAt
        ⟨flight.caller.principal, flight.projectionId, .incomplete, "coverage_failed:" ++ exception⟩ store
  | failed (exception : String) (raised : readings.sweep = .error exception) (absent : store.attempts.get? flight.key = none) :
      Finishes hash store flight readings completedAt
        ⟨flight.caller.principal, flight.projectionId, .incomplete, "coverage_failed:" ++ exception⟩
        (store.add flight.key (failedAttempt flight ("coverage_failed:" ++ exception) completedAt))

variable {flight : Flight}

theorem finish_cases {readings : Readings π} {completedAt checkedAt : ℤ} {result : Result} {later : Store π}
    (done : finish hash store flight readings completedAt checkedAt = .ok (result, later)) :
    Finishes hash store flight readings completedAt result later := by
  unfold finish at done
  cases swept : readings.sweep with
  | error exception =>
    simp only [swept, persistFailedAttempt] at done
    split_ifs at done
    · cases found : store.attempts.get? flight.key with
      | none =>
        simp only [found] at done
        cases done
        exact .failed exception swept found
      | some existing =>
        simp only [found] at done
        cases done
        exact .superseded exception swept existing found
    · cases done
  | ok coverage =>
    simp only [swept] at done
    split_ifs at done
    cases found : store.attempts.get? flight.key with
    | none =>
      simp only [found] at done
      cases done
      exact .committed coverage swept found
    | some existing =>
      simp only [found] at done
      cases done
      exact .replayed coverage swept existing found

theorem Finishes.keeps {readings : Readings π} {completedAt : ℤ} {result : Result} {later : Store π}
    (finishes : Finishes hash store flight readings completedAt result later) : Keeps store later := by
  cases finishes with
  | replayed => exact keeps_refl store
  | superseded => exact keeps_refl store
  | committed coverage returned absent => exact keeps_add absent _
  | failed exception raised absent => exact keeps_add absent _

theorem step_keeps (hash : Evidence π → String) (system : Deployment π) (event : Event π) :
    Keeps system.store (step hash system event).store := by
  cases event with
  | lease principal lease => cases lease <;> exact keeps_refl _
  | begin =>
    unfold step
    dsimp only
    split <;> exact keeps_refl _
  | finish call readings completedAt checkedAt =>
    unfold step
    dsimp only
    cases system.flights.get? call with
    | none => exact keeps_refl _
    | some flight =>
      dsimp only
      split
      case h_1 done => exact (finish_cases done).keeps
      case h_2 => exact keeps_refl _

theorem run_keeps (hash : Evidence π → String) (system : Deployment π) (events : List (Event π)) :
    Keeps system.store (run (step hash) system events).store := by
  induction events generalizing system with
  | nil => exact keeps_refl _
  | cons event rest ih => exact fun key attempt found => ih _ key attempt (step_keeps hash system event key attempt found)

structure Commits (hash : Evidence π → String) (system : Deployment π) (flight : Flight) (call : ℕ) (readings : Readings π)
    (completedAt checkedAt : ℤ) (result : Result) : Prop where
  flying : system.flights.get? call = some flight
  absent : system.store.attempts.get? flight.key = none
  done : ∃ store, finish hash system.store flight readings completedAt checkedAt = .ok (result, store)

/-- Whatever happens, a later call for the same principal and id under a valid lease returns the result at once. -/
def ReplaysAs (hash : Evidence π → String) (system : Deployment π) (flight : Flight) (result : Result) : Prop :=
  ∀ (events : List (Event π)) (caller : Synchronizer) (projectionId uuid : String) (startedAt checkedAt : ℤ),
    caller.principal = flight.caller.principal → strip projectionId = flight.projectionId →
    (run (step hash) system events).store.authorizes caller checkedAt →
    begin (run (step hash) system events).store caller (some projectionId) uuid startedAt checkedAt = .ok (.inl result)

theorem begin_stored {attempt : Attempt π} (stored : store.attempts.get? flight.key = some attempt)
    {caller : Synchronizer} (principal : caller.principal = flight.caller.principal) {projectionId : String}
    (named : strip projectionId = flight.projectionId) {checkedAt : ℤ} (authorized : store.authorizes caller checkedAt) (uuid : String)
    (startedAt : ℤ) :
    begin store caller (some projectionId) uuid startedAt checkedAt = .ok (.inl (storedResult flight.key attempt)) := by
  have requested : projectionId ≠ "" := by
    intro empty
    rw [empty] at named
    exact flight.named named.symm
  have principled : Execution.isFingerprint caller.principal = true := principal ▸ flight.principled
  have nonempty : strip projectionId ≠ "" := named ▸ flight.named
  have key : ((caller.principal, strip projectionId) : String × String) = flight.key := by rw [principal, named, Flight.key]
  unfold begin
  simp only [dif_pos principled, Option.getD_some, if_neg requested, dif_neg nonempty, if_pos authorized, Flight.key,
    Flight.projectionId]
  rw [key, stored]
  rfl

theorem authorizes_own (store : Store π) (flight : Flight) :
    Store.authorizes { store with leases := store.leases.set flight.caller.principal ⟨flight.caller.owner, flight.caller.fenceToken, 1, 0⟩ }
      flight.caller 0 := by
  refine ⟨⟨flight.caller.owner, flight.caller.fenceToken, 1, 0⟩, ?_, rfl, rfl, Int.one_pos⟩
  rw [Dict.get?_set, if_pos rfl]
  rfl

theorem replaysAs_iff {attempt : Attempt π} (stored : system.store.attempts.get? flight.key = some attempt)
    (result : Result) : ReplaysAs hash system flight result ↔ result = storedResult flight.key attempt := by
  constructor
  · intro replays
    let lease : Lease := ⟨flight.caller.owner, flight.caller.fenceToken, 1, 0⟩
    have authorized := authorizes_own system.store flight
    let events : List (Event π) := [.lease flight.caller.principal (some lease)]
    have answer := replays events flight.caller flight.requested "" 0 0 rfl rfl authorized
    have kept := run_keeps hash system events _ _ stored
    rw [begin_stored kept rfl rfl authorized] at answer
    cases answer
    rfl
  · intro same events caller projectionId uuid startedAt checkedAt principal named authorized
    rw [begin_stored (run_keeps hash system events _ _ stored) principal named authorized, same]

/-- A call that commits its attempt is reproduced by all later calls for its id exactly if its sweep returned. -/
theorem replays_iff {flight : Flight} {call : ℕ} {readings : Readings π} {completedAt checkedAt : ℤ} {result : Result}
    (commits : Commits hash system flight call readings completedAt checkedAt result) :
    ReplaysAs hash (step hash system (.finish call readings completedAt checkedAt)) flight result ↔
      ∃ coverage, readings.sweep = .ok coverage := by
  have ⟨store, done⟩ := commits.done
  have after : (step hash system (.finish call readings completedAt checkedAt)).store = store := by
    simp only [step, commits.flying, done]
  have absent := commits.absent
  cases finish_cases done with
  | replayed coverage returned existing found => rw [absent] at found; cases found
  | superseded exception raised existing found => rw [absent] at found; cases found
  | committed coverage returned =>
    have stored := get?_add system.store flight.key flight.key (attemptOf hash flight coverage readings completedAt)
    rw [if_pos rfl, ← after] at stored
    exact iff_of_true ((replaysAs_iff stored _).2 rfl) ⟨coverage, returned⟩
  | failed exception raised =>
    have stored := get?_add system.store flight.key flight.key
      (failedAttempt flight ("coverage_failed:" ++ exception) completedAt : Attempt π)
    rw [if_pos rfl, ← after] at stored
    refine iff_of_false (fun replays => ?_) fun ⟨coverage, returned⟩ => ?_
    · have same := (replaysAs_iff stored _).1 replays
      exact absurd (congrArg Result.status same) AttemptStatus.noConfusion
    · rw [raised] at returned
      cases returned

def worker : Synchronizer where
  principal := String.ofList (List.replicate 64 'a')
  owner := "worker"
  fenceToken := 1
  subaccount := 0
  freshnessBound := 1000

def opening : List (Event Unit) :=
  [.lease worker.principal (some ⟨"worker", 1, 100, 0⟩), .begin 0 worker (some "p1") "" 0 1]

def opened : Flight := ⟨worker, "p1", 0, by decide, by decide⟩

theorem opening_commits {readings : Readings Unit} {result : Result} {store : Store Unit}
    (done : finish (fun _ => "") (run (step fun _ => "") {} opening).store opened readings 2 3 = .ok (result, store)) :
    Commits (fun _ => "") (run (step fun _ => "") {} opening) opened 0 readings 2 3 result where
  flying := rfl
  absent := rfl
  done := ⟨store, done⟩

def timedOut : Readings Unit := ⟨.error "TimeoutError", none, none, none⟩

def timeoutAnswer : Result := ⟨worker.principal, "p1", .incomplete, "coverage_failed:TimeoutError"⟩

/-- The call answers that the projection is incomplete, and later calls that it failed. -/
theorem timedOut_not_reproduced : Commits (fun _ => "") (run (step fun _ => "") {} opening) opened 0 timedOut 2 3 timeoutAnswer ∧
    ¬ ReplaysAs (fun _ => "") (step (fun _ => "") (run (step fun _ => "") {} opening) (.finish 0 timedOut 2 3)) opened timeoutAnswer := by
  have stored : (step (fun _ => "") (run (step fun _ => "") {} opening) (.finish 0 timedOut 2 3)).store.attempts.get? opened.key =
      some (failedAttempt opened "coverage_failed:TimeoutError" 2) := rfl
  refine ⟨opening_commits rfl, fun replays => ?_⟩
  have same := (replaysAs_iff stored timeoutAnswer).1 replays
  exact absurd (congrArg Result.status same) (by decide)

def degraded : Readings Unit := ⟨.ok ⟨"c1", "complete", 2, ""⟩, some ((), 3), none, some ((), 4)⟩

theorem degraded_replays : ReplaysAs (fun _ => "") (step (fun _ => "") (run (step fun _ => "") {} opening) (.finish 0 degraded 2 3)) opened
    (storedResult opened.key (attemptOf (fun _ => "") opened ⟨"c1", "complete", 2, ""⟩ degraded 2)) :=
  (replays_iff (opening_commits rfl)).2 ⟨_, rfl⟩

end Callisto.Portfolio.Projection
