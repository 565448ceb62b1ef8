import Callisto.Portfolio.Coverage
import Callisto.Portfolio.ProjectionReplay

/-! Workers that take a principal's lease from each other while they synchronize: what is committed, and under which fence token. -/

namespace Callisto.Portfolio.Projection

open Callisto.Library Callisto.Library.Runs
open Callisto.Venues (KalshiOrder KalshiFill)

inductive Entry where
  | checkpoint (coverageId : String)
  | attempt (projectionId : String) (status : AttemptStatus)
  deriving DecidableEq

/-- What a transaction has committed, under the token of its worker. -/
structure Commit where
  principal : String
  fenceToken : ℕ
  entry : Entry
  deriving DecidableEq

/-- The database, with the tokens that acquisitions returned and the commits, each in their order. -/
structure Fenced (π : Type) where
  system : Deployment π := {}
  coverage : CoverageTables := {}
  granted : List (String × ℕ) := []
  commits : List Commit := []

/-- A transaction of some worker. A call of `synchronize` is the events of its number. -/
inductive WorkerEvent (π : Type) where
  | acquire (principal ownerId : String) (ttl : ℤ) (force : Bool) (lockedAt : ℤ)
  | renew (principal ownerId : String) (fenceToken ttl lockedAt : ℤ)
  | release (principal ownerId : String) (fenceToken lockedAt : ℤ)
  | begin (call : ℕ) (caller : Synchronizer) (projectionId : Option String) (uuid : String) (startedAt checkedAt : ℤ)
  | cover (call : ℕ) (storedAt : ℤ) (checkpoint : Checkpoint) (orders : ById KalshiOrder) (fills : ById KalshiFill)
  | finish (call : ℕ) (readings : Readings π) (completedAt checkedAt : ℤ)

namespace Fenced

variable {π : Type}

def lease (fenced : Fenced π) (principal : String) : Option Lease := fenced.system.store.leases.get? principal

def withLease (fenced : Fenced π) (principal : String) (lease : Lease) : Fenced π :=
  { fenced with system := { fenced.system with store := { fenced.system.store with leases := fenced.system.store.leases.set principal lease } } }

/-- What a call that answers has written to the lease of the principal, if anything. -/
def answered (fenced : Fenced π) (principal : String) : Except LeaseError (Bool × Option Lease) → Fenced π
  | .ok (_, some lease) => fenced.withLease principal lease
  | _ => fenced

/-- The sweep that `synchronize` constructs. -/
def sweepCall (flight : Flight) (storedAt : ℤ) : SweepCall where
  principal := flight.caller.principal
  coverageId := flight.projectionId
  observedAt := flight.startedAt
  expected := some ⟨flight.caller.owner, flight.caller.fenceToken⟩
  loadedAt := storedAt
  storedAt := storedAt
  reloadedAt := storedAt

def newAttempt (flight : Flight) (before after : Store π) : List Commit :=
  match before.attempts.get? flight.key, after.attempts.get? flight.key with
  | none, some attempt => [⟨flight.caller.principal, flight.caller.fenceToken, .attempt flight.projectionId attempt.status⟩]
  | _, _ => []

def step (sha : Sha256) (hash : Evidence π → String) (fenced : Fenced π) : WorkerEvent π → Fenced π
  | .acquire principal ownerId ttl force lockedAt =>
    match acquire principal ownerId ttl force lockedAt (fenced.lease principal) with
    | .ok (token, lease) => { fenced.withLease principal lease with granted := fenced.granted ++ [(principal, token)] }
    | .error _ => fenced
  | .renew principal ownerId fenceToken ttl lockedAt =>
    fenced.answered principal (renew principal ownerId fenceToken ttl lockedAt (fenced.lease principal))
  | .release principal ownerId fenceToken lockedAt =>
    fenced.answered principal (release principal ownerId fenceToken lockedAt (fenced.lease principal))
  | .begin call caller projectionId uuid startedAt checkedAt =>
    { fenced with system := Projection.step hash fenced.system (.begin call caller projectionId uuid startedAt checkedAt) }
  | .cover call storedAt checkpoint orders fills =>
    match fenced.system.flights.get? call with
    | none => fenced
    | some flight =>
      match store sha (fenced.lease flight.caller.principal) fenced.coverage (sweepCall flight storedAt) checkpoint orders fills with
      | .error _ => fenced
      | .ok coverage =>
        { fenced with
          coverage := coverage
          commits := fenced.commits ++
            [⟨flight.caller.principal, flight.caller.fenceToken, .checkpoint checkpoint.result.coverageId⟩] }
  | .finish call readings completedAt checkedAt =>
    let system := Projection.step hash fenced.system (.finish call readings completedAt checkedAt)
    { fenced with
      system := system
      commits := fenced.commits ++
        (fenced.system.flights.get? call).toList.flatMap fun flight => newAttempt flight fenced.system.store system.store }

def attempted (commits : List Commit) (principal : String) : List (String × AttemptStatus) :=
  commits.filterMap fun commit => match commit.entry with
    | .attempt projectionId status => if commit.principal = principal then some (projectionId, status) else none
    | .checkpoint _ => none

/-- Newer tokens come after older ones, and a lease's token is never below one that was returned or committed under. -/
structure Ordered (fenced : Fenced π) : Prop where
  granted : ∀ principal token, (principal, token) ∈ fenced.granted → ∃ lease, fenced.lease principal = some lease ∧ token ≤ lease.fenceToken
  ascending : fenced.granted.Pairwise fun earlier later => earlier.1 = later.1 → earlier.2 < later.2
  bounded : ∀ commit ∈ fenced.commits, ∃ lease, fenced.lease commit.principal = some lease ∧ commit.fenceToken ≤ lease.fenceToken
  fencing : fenced.commits.Pairwise fun earlier later => earlier.principal = later.principal → earlier.fenceToken ≤ later.fenceToken

structure Recorded (fenced : Fenced π) : Prop where
  stored : ∀ principal projectionId status, (projectionId, status) ∈ attempted fenced.commits principal ↔
    ∃ attempt, fenced.system.store.attempts.get? (principal, projectionId) = some attempt ∧ attempt.status = status
  once : ∀ principal, ((attempted fenced.commits principal).map Prod.fst).Nodup
  latest : ∀ principal, (fenced.system.store.heads.get? principal).map Head.latest =
    (attempted fenced.commits principal).getLast?.map Prod.fst
  healthy : ∀ principal, (fenced.system.store.heads.get? principal).bind Head.healthy =
    ((attempted fenced.commits principal).filter fun entry => entry.2 = .complete).getLast?.map Prod.fst

variable {sha : Sha256} {hash : Evidence π → String} {fenced : Fenced π}

theorem lease_withLease (fenced : Fenced π) (principal other : String) (held : Lease) :
    (fenced.withLease principal held).lease other = if principal = other then some held else fenced.lease other :=
  Dict.get?_set ..

variable {held : Lease}

theorem Ordered.withLease (ordered : fenced.Ordered) {principal : String}
    (newer : ∀ old, fenced.lease principal = some old → old.fenceToken ≤ held.fenceToken) : (fenced.withLease principal held).Ordered := by
  have bound : ∀ other token, (∃ old, fenced.lease other = some old ∧ token ≤ old.fenceToken) →
      ∃ lease, (fenced.withLease principal held).lease other = some lease ∧ token ≤ lease.fenceToken := by
    rintro other token ⟨old, stands, below⟩
    rw [lease_withLease]
    by_cases same : principal = other
    · subst same
      exact ⟨held, if_pos rfl, below.trans (newer old stands)⟩
    · exact ⟨old, (if_neg same).trans stands, below⟩
  exact ⟨fun other token member => bound other token (ordered.granted other token member), ordered.ascending,
    fun commit member => bound _ _ (ordered.bounded commit member), ordered.fencing⟩

theorem Ordered.answered (ordered : fenced.Ordered) {principal : String} {result : Except LeaseError (Bool × Option Lease)}
    (keeps : ∀ answer held, result = .ok (answer, some held) → ∃ old, fenced.lease principal = some old ∧ held.fenceToken = old.fenceToken) :
    (fenced.answered principal result).Ordered := by
  unfold Fenced.answered
  split
  · next answer held =>
    obtain ⟨old, stands, same⟩ := keeps answer held rfl
    exact ordered.withLease fun other found => (Option.some.inj (stands.symm.trans found) ▸ same).ge
  · exact ordered

theorem Ordered.commit (ordered : fenced.Ordered) {after : Fenced π} {commit : Commit}
    (leases : ∀ principal, after.lease principal = fenced.lease principal) (granted : after.granted = fenced.granted)
    (commits : after.commits = fenced.commits ++ [commit]) (stands : fenced.lease commit.principal = some held)
    (same : held.fenceToken = commit.fenceToken) : after.Ordered := by
  refine ⟨?_, granted ▸ ordered.ascending, ?_, ?_⟩
  · rw [granted]
    simpa only [leases] using ordered.granted
  · intro other member
    rw [commits] at member
    rw [leases]
    rcases List.mem_append.1 member with old | new
    · exact ordered.bounded other old
    · rw [List.mem_singleton.1 new]
      exact ⟨held, stands, same.ge⟩
  · rw [commits, List.pairwise_append]
    refine ⟨ordered.fencing, List.pairwise_singleton .., fun earlier member later last shared => ?_⟩
    obtain rfl := List.mem_singleton.1 last
    obtain ⟨lease, found, below⟩ := ordered.bounded earlier member
    rw [shared, stands] at found
    cases found
    exact below.trans same.le

theorem Ordered.of_same (ordered : fenced.Ordered) {after : Fenced π} (leases : ∀ principal, after.lease principal = fenced.lease principal)
    (granted : after.granted = fenced.granted) (commits : after.commits = fenced.commits) : after.Ordered := by
  refine ⟨?_, granted ▸ ordered.ascending, ?_, commits ▸ ordered.fencing⟩
  · rw [granted]
    simpa only [leases] using ordered.granted
  · rw [commits]
    simpa only [leases] using ordered.bounded

theorem acquire_ok {principal ownerId : String} {ttl : ℤ} {force : Bool} {lockedAt : ℤ} {row : Option Lease} {token : ℕ}
    (acquires : acquire principal ownerId ttl force lockedAt row = .ok (token, held)) :
    held.fenceToken = token ∧ ∀ old, row = some old → old.fenceToken < token := by
  unfold acquire at acquires
  split_ifs at acquires
  cases row with
  | none =>
    cases acquires
    exact ⟨rfl, nofun⟩
  | some lease =>
    dsimp only at acquires
    split_ifs at acquires
    cases acquires
    refine ⟨rfl, fun old same => ?_⟩
    cases same
    exact Nat.lt_succ_self _

theorem renew_ok {principal ownerId : String} {fenceToken ttl lockedAt : ℤ} {row : Option Lease} {answer : Bool}
    (renews : renew principal ownerId fenceToken ttl lockedAt row = .ok (answer, some held)) :
    ∃ old, row = some old ∧ held.fenceToken = old.fenceToken := by
  unfold renew at renews
  split_ifs at renews
  cases row with
  | none => cases renews
  | some lease =>
    dsimp only at renews
    split_ifs at renews <;> cases renews <;> exact ⟨_, rfl, rfl⟩

theorem release_ok {principal ownerId : String} {fenceToken lockedAt : ℤ} {row : Option Lease} {answer : Bool}
    (releases : release principal ownerId fenceToken lockedAt row = .ok (answer, some held)) :
    ∃ old, row = some old ∧ held.fenceToken = old.fenceToken := by
  unfold release at releases
  split_ifs at releases
  cases row with
  | none => cases releases
  | some lease =>
    dsimp only at releases
    split_ifs at releases <;> cases releases <;> exact ⟨_, rfl, rfl⟩

theorem finish_adds {flight : Flight} {readings : Readings π} {completedAt checkedAt : ℤ} {result : Result} {store later : Store π}
    (done : Projection.finish hash store flight readings completedAt checkedAt = .ok (result, later)) :
    later = store ∧ newAttempt flight store later = [] ∨
      ∃ attempt : Attempt π, store.authorizes flight.caller checkedAt ∧ store.attempts.get? flight.key = none ∧ later = store.add flight.key attempt ∧
        newAttempt flight store later = [⟨flight.caller.principal, flight.caller.fenceToken, .attempt flight.projectionId attempt.status⟩] := by
  have holds : store.authorizes flight.caller checkedAt := by
    by_contra refused
    unfold Projection.finish persistFailedAttempt at done
    cases swept : readings.sweep with
    | error exception => simp [swept, refused, Except.map] at done
    | ok coverage => simp [swept, refused] at done
  have adds : ∀ attempt : Attempt π, store.attempts.get? flight.key = none → newAttempt flight store (store.add flight.key attempt) =
      [⟨flight.caller.principal, flight.caller.fenceToken, .attempt flight.projectionId attempt.status⟩] := by
    intro attempt absent
    simp only [newAttempt, absent, get?_add, if_pos]
  have same : ∀ existing : Attempt π, store.attempts.get? flight.key = some existing → newAttempt flight store store = [] := by
    intro existing found
    simp only [newAttempt, found]
  cases finish_cases done with
  | replayed coverage returned existing found => exact Or.inl ⟨rfl, same existing found⟩
  | superseded exception raised existing found => exact Or.inl ⟨rfl, same existing found⟩
  | committed coverage returned absent => exact Or.inr ⟨_, holds, absent, rfl, adds _ absent⟩
  | failed exception raised absent => exact Or.inr ⟨_, holds, absent, rfl, adds _ absent⟩

theorem step_finish {fenced after : Fenced π} {call : ℕ} {readings : Readings π} {completedAt checkedAt : ℤ}
    (stepped : step sha hash fenced (.finish call readings completedAt checkedAt) = after) :
    after.system.store = fenced.system.store ∧ after.commits = fenced.commits ∨
      ∃ (flight : Flight) (attempt : Attempt π), fenced.system.store.authorizes flight.caller checkedAt ∧
        fenced.system.store.attempts.get? flight.key = none ∧ after.system.store = fenced.system.store.add flight.key attempt ∧
        after.commits = fenced.commits ++
          [⟨flight.caller.principal, flight.caller.fenceToken, .attempt flight.projectionId attempt.status⟩] := by
  subst stepped
  simp only [step, Projection.step]
  cases fenced.system.flights.get? call with
  | none => exact Or.inl ⟨rfl, List.append_nil _⟩
  | some flight =>
    dsimp only [Option.toList_some, List.flatMap_cons, List.flatMap_nil, List.append_nil]
    cases done : Projection.finish hash fenced.system.store flight readings completedAt checkedAt with
    | error error =>
      refine Or.inl ⟨rfl, ?_⟩
      have none_ : newAttempt flight fenced.system.store fenced.system.store = [] := by
        unfold newAttempt
        split
        · next absent present => rw [absent] at present; cases present
        · rfl
      simp [none_]
    | ok returned =>
      rcases finish_adds done with ⟨same, none_⟩ | ⟨attempt, holds, absent, added, commits⟩
      · exact Or.inl ⟨same, by simp [none_]⟩
      · exact Or.inr ⟨flight, attempt, holds, absent, added, by simp [commits]⟩

theorem store_checked {held : Option Lease} {tables after : CoverageTables} {flight : Flight} {storedAt : ℤ} {checkpoint : Checkpoint}
    {orders : ById KalshiOrder} {fills : ById KalshiFill}
    (stored : store sha held tables (sweepCall flight storedAt) checkpoint orders fills = .ok after) :
    ∃ lease, held = some lease ∧ lease.fenceToken = flight.caller.fenceToken := by
  unfold store storeObservations at stored
  cases held with
  | none => cases stored
  | some lease =>
    refine ⟨lease, rfl, ?_⟩
    by_contra other
    have refused : ¬lease.heldBy flight.caller.owner flight.caller.fenceToken storedAt := fun holds => other holds.2.1
    have raises : checkLease (sweepCall flight storedAt).expected (some lease) (sweepCall flight storedAt).storedAt =
        .error (.lease "portfolio coverage lease fence changed or expired") := if_neg refused
    rw [raises] at stored
    cases stored

theorem ordered_step (sha : Sha256) (hash : Evidence π → String) (ordered : fenced.Ordered) (event : WorkerEvent π) :
    (step sha hash fenced event).Ordered := by
  cases event with
  | acquire principal ownerId ttl force lockedAt =>
    simp only [step]
    split
    · next token held acquires =>
      obtain ⟨rfl, newer⟩ := acquire_ok acquires
      have leased : (fenced.withLease principal held).Ordered := ordered.withLease fun old stands => (newer old stands).le
      refine ⟨?_, ?_, leased.bounded, leased.fencing⟩
      · intro other token member
        rcases List.mem_append.1 member with old | new
        · exact leased.granted other token old
        · cases List.mem_singleton.1 new
          exact ⟨held, (lease_withLease fenced principal principal held).trans (if_pos rfl), le_rfl⟩
      · rw [List.pairwise_append]
        refine ⟨ordered.ascending, List.pairwise_singleton .., fun earlier member later last shared => ?_⟩
        obtain rfl := List.mem_singleton.1 last
        obtain ⟨old, stands, below⟩ := ordered.granted earlier.1 earlier.2 member
        have same : earlier.1 = principal := shared
        rw [same] at stands
        exact below.trans_lt (newer old stands)
    · exact ordered
  | renew principal ownerId fenceToken ttl lockedAt => exact ordered.answered fun answer held => renew_ok
  | release principal ownerId fenceToken lockedAt => exact ordered.answered fun answer held => release_ok
  | begin call caller projectionId uuid startedAt checkedAt =>
    refine ordered.of_same (fun principal => ?_) rfl rfl
    simp only [lease, step, Projection.step]
    split <;> rfl
  | cover call storedAt checkpoint orders fills =>
    simp only [step]
    split
    · exact ordered
    · next flight flies =>
      split
      · exact ordered
      · next coverage stored =>
        obtain ⟨held, stands, same⟩ := store_checked stored
        exact ordered.commit (fun _ => rfl) rfl rfl stands same
  | finish call readings completedAt checkedAt =>
    have leases : ∀ store later : Store π, later.leases = store.leases → ∀ principal, later.leases.get? principal = store.leases.get? principal :=
      fun store later same principal => by rw [same]
    rcases @step_finish π sha hash fenced _ call readings completedAt checkedAt rfl with ⟨same, commits⟩ | ⟨flight, attempt, holds, -, added, commits⟩
    · exact ordered.of_same (fun principal => leases _ _ (by rw [same]) principal) rfl commits
    · obtain ⟨held, stands, -, token, -⟩ := holds
      exact ordered.commit (fun principal => leases _ _ (by rw [added]; rfl) principal) rfl commits stands token

theorem attempted_append (commits : List Commit) (principal other : String) (token : ℕ) (projectionId : String) (status : AttemptStatus) :
    attempted (commits ++ [⟨principal, token, .attempt projectionId status⟩]) other =
      attempted commits other ++ if principal = other then [(projectionId, status)] else [] := by
  rw [attempted, List.filterMap_append]
  by_cases same : principal = other
  · subst same
    simp [attempted]
  · simp [attempted, same]

theorem attempted_checkpoint (commits : List Commit) (principal other : String) (token : ℕ) (coverageId : String) :
    attempted (commits ++ [⟨principal, token, .checkpoint coverageId⟩]) other = attempted commits other := by
  rw [attempted, List.filterMap_append]
  exact List.append_nil _

theorem Recorded.of_same (recorded : fenced.Recorded) {after : Fenced π} (attempts : after.system.store.attempts = fenced.system.store.attempts)
    (heads : after.system.store.heads = fenced.system.store.heads)
    (commits : ∀ principal, attempted after.commits principal = attempted fenced.commits principal) : after.Recorded := by
  constructor
  · simpa only [commits, attempts] using recorded.stored
  · simpa only [commits] using recorded.once
  · simpa only [commits, heads] using recorded.latest
  · simpa only [commits, heads] using recorded.healthy

theorem Recorded.add (recorded : fenced.Recorded) {after : Fenced π} {principal projectionId : String} {token : ℕ} {attempt : Attempt π}
    (absent : fenced.system.store.attempts.get? (principal, projectionId) = none)
    (added : after.system.store = fenced.system.store.add (principal, projectionId) attempt)
    (commits : after.commits = fenced.commits ++ [⟨principal, token, .attempt projectionId attempt.status⟩]) : after.Recorded := by
  have heads : ∀ other, after.system.store.heads.get? other = if principal = other then
      some ⟨projectionId, if attempt.status = .complete then some projectionId else (fenced.system.store.heads.get? principal).bind Head.healthy,
        attempt.completedAt⟩ else fenced.system.store.heads.get? other := by
    intro other
    rw [added]
    exact Dict.get?_set ..
  have list : ∀ other, attempted after.commits other =
      attempted fenced.commits other ++ if principal = other then [(projectionId, attempt.status)] else [] := by
    intro other
    rw [commits, attempted_append]
  have new : ∀ status, (projectionId, status) ∉ attempted fenced.commits principal := by
    intro status member
    obtain ⟨held, found, -⟩ := (recorded.stored principal projectionId status).1 member
    rw [absent] at found
    cases found
  constructor
  · intro other id status
    rw [list, List.mem_append, recorded.stored, added, get?_add]
    by_cases same : principal = other
    · subst same
      by_cases named : projectionId = id
      · subst named
        simp [absent, eq_comm]
      · simp [named, Ne.symm named]
    · simp [same]
  · intro other
    rw [list]
    by_cases same : principal = other
    · subst same
      rw [if_pos rfl, List.map_append, List.nodup_append]
      refine ⟨recorded.once principal, List.nodup_singleton _, fun id member named last => ?_⟩
      obtain ⟨entry, held, rfl⟩ := List.mem_map.1 member
      obtain rfl := List.mem_singleton.1 last
      rintro rfl
      exact new entry.2 held
    · rw [if_neg same, List.append_nil]
      exact recorded.once other
  · intro other
    rw [list, heads]
    by_cases same : principal = other
    · subst same
      simp
    · simpa [same] using recorded.latest other
  · intro other
    rw [list, heads]
    by_cases same : principal = other
    · subst same
      by_cases complete : attempt.status = .complete
      · simp [complete]
      · simpa [complete] using recorded.healthy principal
    · simpa [same] using recorded.healthy other

theorem recorded_step (sha : Sha256) (hash : Evidence π → String) (recorded : fenced.Recorded) (event : WorkerEvent π) :
    (step sha hash fenced event).Recorded := by
  cases event with
  | acquire principal ownerId ttl force lockedAt =>
    simp only [step]
    split <;> exact recorded.of_same rfl rfl fun _ => rfl
  | renew | release =>
    simp only [step, answered]
    split <;> exact recorded.of_same rfl rfl fun _ => rfl
  | begin call caller projectionId uuid startedAt checkedAt =>
    refine recorded.of_same ?_ ?_ fun _ => rfl
    · simp only [step, Projection.step]
      split <;> rfl
    · simp only [step, Projection.step]
      split <;> rfl
  | cover call storedAt checkpoint orders fills =>
    simp only [step]
    split
    · exact recorded
    · split
      · exact recorded
      · exact recorded.of_same rfl rfl fun principal => attempted_checkpoint ..
  | finish call readings completedAt checkedAt =>
    rcases @step_finish π sha hash fenced _ call readings completedAt checkedAt rfl
      with ⟨same, commits⟩ | ⟨flight, attempt, -, absent, added, commits⟩
    · exact recorded.of_same (by rw [same]) (by rw [same]) fun _ => by rw [commits]
    · exact recorded.add absent added commits

/-- In every run of any workers, acquisitions return ever newer tokens, and once a transaction has committed under a token of a principal,
none commits under an older one. -/
theorem fencing_run (sha : Sha256) (hash : Evidence π → String) (events : List (WorkerEvent π)) :
    (run (step sha hash) ({} : Fenced π) events).Ordered := by
  have start : ({} : Fenced π).Ordered := ⟨nofun, List.Pairwise.nil, nofun, List.Pairwise.nil⟩
  exact @invariant_all _ _ (step sha hash) Ordered (fun _ event held => ordered_step sha hash held event) _ start events

/-- In every run of any workers, a projection id is committed once, its attempt stays as it was committed, and a principal's head names the
last attempt and the last complete one. -/
theorem heads_run (sha : Sha256) (hash : Evidence π → String) (first later : List (WorkerEvent π)) :
    (run (step sha hash) ({} : Fenced π) (first ++ later)).Recorded ∧
      Keeps (run (step sha hash) ({} : Fenced π) first).system.store (run (step sha hash) ({} : Fenced π) (first ++ later)).system.store := by
  have start : ({} : Fenced π).Recorded := ⟨by simp [attempted], by simp [attempted], by simp [attempted], by simp [attempted]⟩
  refine ⟨@invariant_all _ _ (step sha hash) Recorded (fun _ event held => recorded_step sha hash held event) _ start _, ?_⟩
  rw [run_append]
  generalize run (step sha hash) ({} : Fenced π) first = fenced
  induction later generalizing fenced with
  | nil => exact keeps_refl _
  | cons event rest ih =>
    refine fun key attempt found => ih _ key attempt ?_
    cases event with
    | begin call caller projectionId uuid startedAt checkedAt => exact step_keeps hash fenced.system (.begin ..) key attempt found
    | finish call readings completedAt checkedAt => exact step_keeps hash fenced.system (.finish ..) key attempt found
    | _ =>
      simp only [step, answered]
      split <;> first | exact found | (split <;> exact found)

end Fenced

end Callisto.Portfolio.Projection
