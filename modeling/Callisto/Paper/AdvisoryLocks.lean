import Callisto.Library.Locks
import Mathlib.Data.Fin.VecNotation
import Mathlib.Data.Set.Function
import Mathlib.Tactic.FinCases

/-! The session advisory locks of the paper service. A decision call takes the lock of its decision
id; an exit call takes that lock and then the lock of its position, in this order. -/

namespace Callisto.Paper

open Relation Callisto.Library

abbrev LockName := String × String

def positionComponent (positionId : String) : String := "position:" ++ positionId

/-- A call of the service that takes advisory locks, with its normalised ids. -/
inductive LockingCall where
  | recordDecision (accountId decisionId : String)
  | recordExit (accountId decisionId positionId : String)
  deriving DecidableEq

namespace LockingCall

def names : LockingCall → List LockName
  | recordDecision accountId decisionId => [(accountId, decisionId)]
  | recordExit accountId decisionId positionId =>
    [(accountId, decisionId), (accountId, positionComponent positionId)]

/-- The keys a call passes to `pg_advisory_lock`, in the order it passes them. -/
def lockKeys (decisionLockKey : LockName → ℤ) : LockingCall → List ℤ
  | recordDecision accountId decisionId => [decisionLockKey (accountId, decisionId)]
  | recordExit accountId decisionId positionId =>
    let decisionLock := decisionLockKey (accountId, decisionId)
    let positionLock := decisionLockKey (accountId, positionComponent positionId)
    if decisionLock = positionLock then [decisionLock] else [decisionLock, positionLock]

theorem length_lockKeys_le (decisionLockKey : LockName → ℤ) (call : LockingCall) :
    (call.lockKeys decisionLockKey).length ≤ 2 := by
  cases call with
  | recordDecision accountId decisionId => simp [lockKeys]
  | recordExit accountId decisionId positionId =>
    simp only [lockKeys]
    split_ifs <;> simp

theorem nodup_lockKeys (decisionLockKey : LockName → ℤ) (call : LockingCall) :
    (call.lockKeys decisionLockKey).Nodup := by
  cases call with
  | recordDecision accountId decisionId => simp [lockKeys]
  | recordExit accountId decisionId positionId =>
    simp only [lockKeys]
    split_ifs with same
    · simp
    · simpa using same

end LockingCall

section
variable {n : ℕ} (calls : Fin n → LockingCall)

def lockedNames : Set LockName := {name | ∃ client, name ∈ (calls client).names}

def ExitPrecedes (first second : LockName) : Prop :=
  ∃ client accountId decisionId positionId, calls client = .recordExit accountId decisionId positionId ∧
    first = (accountId, decisionId) ∧ second = (accountId, positionComponent positionId) ∧ first ≠ second

variable {calls} {decisionLockKey : LockName → ℤ}

theorem precedes_of_exitPrecedes (collisionFree : Set.InjOn decisionLockKey (lockedNames calls))
    {first second : LockName} (exit : ExitPrecedes calls first second) :
    Locks.Precedes (fun client => (calls client).lockKeys decisionLockKey)
      (decisionLockKey first) (decisionLockKey second) := by
  obtain ⟨client, accountId, decisionId, positionId, call, rfl, rfl, different⟩ := exit
  have keys : decisionLockKey (accountId, decisionId) ≠
      decisionLockKey (accountId, positionComponent positionId) := by
    intro equal
    exact different (collisionFree ⟨client, by simp [call, LockingCall.names]⟩
      ⟨client, by simp [call, LockingCall.names]⟩ equal)
  refine ⟨client, [decisionLockKey (accountId, decisionId)], [], ?_, List.mem_singleton_self _⟩
  simp [call, LockingCall.lockKeys, keys]

theorem exitPrecedes_of_precedes {first second : ℤ}
    (precedes : Locks.Precedes (fun client => (calls client).lockKeys decisionLockKey) first second) :
    ∃ firstName secondName, decisionLockKey firstName = first ∧ decisionLockKey secondName = second ∧
      firstName ∈ lockedNames calls ∧ secondName ∈ lockedNames calls ∧
      ExitPrecedes calls firstName secondName := by
  obtain ⟨client, pair⟩ := (Locks.precedes_iff_pair
    (fun client => (calls client).length_lockKeys_le decisionLockKey) first second).1 precedes
  cases call : calls client with
  | recordDecision accountId decisionId => simp [call, LockingCall.lockKeys] at pair
  | recordExit accountId decisionId positionId =>
    simp only [call, LockingCall.lockKeys] at pair
    split_ifs at pair with same
    · simp at pair
    · obtain ⟨rfl, rfl⟩ : decisionLockKey (accountId, decisionId) = first ∧
          decisionLockKey (accountId, positionComponent positionId) = second := by simpa using pair
      exact ⟨_, _, rfl, rfl, ⟨client, by simp [call, LockingCall.names]⟩,
        ⟨client, by simp [call, LockingCall.names]⟩, client, accountId, decisionId, positionId, call, rfl, rfl,
        fun equal => same (congrArg decisionLockKey equal)⟩

theorem exit_chain_of_precedes (collisionFree : Set.InjOn decisionLockKey (lockedNames calls)) {first last : ℤ}
    (chain : TransGen (Locks.Precedes (fun client => (calls client).lockKeys decisionLockKey)) first last) :
    ∃ firstName lastName, decisionLockKey firstName = first ∧ decisionLockKey lastName = last ∧
      firstName ∈ lockedNames calls ∧ lastName ∈ lockedNames calls ∧
      TransGen (ExitPrecedes calls) firstName lastName := by
  induction chain with
  | single precedes =>
    obtain ⟨firstName, lastName, first, last, firstLocked, lastLocked, exit⟩ := exitPrecedes_of_precedes precedes
    exact ⟨firstName, lastName, first, last, firstLocked, lastLocked, TransGen.single exit⟩
  | tail _ precedes ih =>
    obtain ⟨firstName, middle, first, middleKey, firstLocked, middleLocked, before⟩ := ih
    obtain ⟨from', lastName, fromKey, last, fromLocked, lastLocked, exit⟩ := exitPrecedes_of_precedes precedes
    have same : middle = from' := collisionFree middleLocked fromLocked (middleKey.trans fromKey.symm)
    subst same
    exact ⟨firstName, lastName, first, last, firstLocked, lastLocked, before.tail exit⟩

/-- Calls are free of deadlock exactly when no circle of exits takes, one after the other, as its
decision what the previous one took as its position. -/
theorem deadlock_free_iff_exits_acyclic (collisionFree : Set.InjOn decisionLockKey (lockedNames calls)) :
    (∀ state, Locks.Reachable (fun client => (calls client).lockKeys decisionLockKey) state →
      ¬ Locks.Deadlocked state) ↔ ∀ name, ¬ TransGen (ExitPrecedes calls) name name := by
  rw [Locks.deadlock_free_iff_acyclic (fun client => (calls client).length_lockKeys_le decisionLockKey)
    (fun client => (calls client).nodup_lockKeys decisionLockKey)]
  constructor
  · intro acyclic name cycle
    refine acyclic (decisionLockKey name) ?_
    exact cycle.lift decisionLockKey fun _ _ exit => precedes_of_exitPrecedes collisionFree exit
  · intro acyclic key cycle
    obtain ⟨firstName, lastName, first, last, firstLocked, lastLocked, chain⟩ :=
      exit_chain_of_precedes collisionFree cycle
    have same : firstName = lastName := collisionFree firstLocked lastLocked (first.trans last.symm)
    subst same
    exact acyclic firstName chain

end

/-- The digest keys of the names that the calls below lock in account `A`. -/
def digestKey : LockName → ℤ := fun name =>
  if name = ("A", "position:X") then 4169214846497930335
  else if name = ("A", "position:Y") then -1529402334296145253
  else if name = ("A", "D1") then 5665843328713837764
  else if name = ("A", "D2") then 1265466265987429311
  else 0

/-- Two exits of positions `X` and `Y` under decision ids of their own, and a decision. -/
def ordinaryCalls : Fin 3 → LockingCall :=
  ![.recordExit "A" "D1" "X", .recordExit "A" "D2" "Y", .recordDecision "A" "D1"]

theorem deadlock_free_iff_ordinary :
    (∀ state, Locks.Reachable (fun client => (ordinaryCalls client).lockKeys digestKey) state →
      ¬ Locks.Deadlocked state) ↔ ∀ name, ¬ TransGen (ExitPrecedes ordinaryCalls) name name := by
  refine deadlock_free_iff_exits_acyclic ?_
  rintro first ⟨client, member⟩ second ⟨other, otherMember⟩ equal
  fin_cases client <;> fin_cases other <;>
    simp [ordinaryCalls, LockingCall.names, positionComponent] at member otherMember <;>
    revert equal <;> rcases member with rfl | rfl <;> rcases otherMember with rfl | rfl <;> decide

def crossedExits : Fin 2 → LockingCall := ![.recordExit "A" "position:Y" "X", .recordExit "A" "position:X" "Y"]

/-- Each of the two exits takes the lock of its decision and then waits for the other one. -/
theorem crossedExits_deadlocked :
    Set.InjOn digestKey (lockedNames crossedExits) ∧
      ∃ state, Locks.Reachable (fun client => (crossedExits client).lockKeys digestKey) state ∧
        Locks.Deadlocked state := by
  constructor
  · rintro first ⟨client, member⟩ second ⟨other, otherMember⟩ equal
    fin_cases client <;> fin_cases other <;>
      simp [crossedExits, LockingCall.names, positionComponent] at member otherMember <;>
      revert equal <;> rcases member with rfl | rfl <;> rcases otherMember with rfl | rfl <;> decide
  · have first : (crossedExits 0).lockKeys digestKey = [-1529402334296145253, 4169214846497930335] := by decide
    have second : (crossedExits 1).lockKeys digestKey = [4169214846497930335, -1529402334296145253] := by decide
    refine ⟨_, (ReflTransGen.single (Locks.Step.acquire 0 (-1529402334296145253) [4169214846497930335] first
      ?_)).tail (Locks.Step.acquire 1 4169214846497930335 [-1529402334296145253] second ?_), 0,
      TransGen.tail (b := 1) (TransGen.single ?_) ?_⟩
    · intro other _ held
      simp [Locks.Client.fresh] at held
    · intro other different held
      fin_cases other
      · simp [Locks.Client.fresh, Locks.Client.take, first] at held
      · exact different rfl
    · exact ⟨4169214846497930335, [], by simp [Locks.Client.fresh, Locks.Client.take, first], by decide,
        by simp [Locks.Client.fresh, Locks.Client.take, second]⟩
    · exact ⟨-1529402334296145253, [], by simp [Locks.Client.fresh, Locks.Client.take, second], by decide,
        by simp [Locks.Client.fresh, Locks.Client.take, first]⟩

end Callisto.Paper
