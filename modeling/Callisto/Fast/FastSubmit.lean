import Callisto.Library.Dict

/-! The fast path: a submission goes through the journal, the venue and the order rows, and a sweep bridges open intents to the rows. -/

namespace Callisto.Fast

open Callisto.Library

abbrev Key := String × String

structure Intent where
  mode : String
  isOpen : Bool
  deriving DecidableEq

inductive OrderStatus where
  | executed
  | failed
  | cancelled
  deriving DecidableEq

def OrderStatus.text : OrderStatus → String
  | .executed => "executed"
  | .failed => "failed"
  | .cancelled => "cancelled"

def activeOrderStatuses : List String := ["submitted", "executed", "completed", "open"]

def hotUnfilledOrderStatuses : List String :=
  ["pending", "placing", "submitted", "open", "working", "partial", "hedging", "partially_filled"]

def OrderStatus.countsOpen (status : OrderStatus) : Bool :=
  decide (status.text ∈ activeOrderStatuses) && decide (status.text ∈ hotUnfilledOrderStatuses)

/-- How far a call of `execute_fast_signal` is behind its intent: at the venue, with the outcome, with its row committed, ended without a
result, or settled. -/
inductive Stage where
  | onWire
  | answered (status : OrderStatus)
  | persisted (status : OrderStatus)
  | unresolved
  | settled (countsOpen : Bool)
  deriving DecidableEq

def Stage.inFlight : Stage → Bool
  | .onWire | .answered _ | .persisted _ => true
  | .unresolved | .settled _ => false

def Stage.busy : Stage → Bool
  | .onWire | .answered _ | .persisted _ | .unresolved => true
  | .settled countsOpen => countsOpen

structure Submission where
  mode : String
  stage : Stage

/-- A committed row; a recovery row has the id of its trader and signal. -/
structure Row where
  key : Key
  recovery : Bool
  deriving DecidableEq

/-- A running `recover_open_intents`: the intents it has yet to handle, the answer of its lookup, and the rows in its session. -/
structure Sweep where
  remaining : List (Key × String)
  found : Option Bool
  staged : List Key

/-- The stores and the process. The orders that the venue may hold and the calls are kept as history. -/
structure FastState where
  intents : Dict Key Intent
  submissions : Dict Key Submission
  rows : List Row
  sweeps : Dict ℕ Sweep
  held : List Key
  started : List Key
  calls : List (String × Option ℤ)

def noFast : FastState := ⟨Dict.empty, Dict.empty, [], Dict.empty, [], [], []⟩

/-- `record_result` with a terminal status. -/
def closeIntent (intents : Dict Key Intent) (key : Key) : Dict Key Intent :=
  intents.set key ⟨(intents.get? key).elim "" Intent.mode, false⟩

def openIntentCount (state : FastState) (trader : String) : ℕ :=
  state.intents.countEntries fun key intent => key.1 = trader && intent.isOpen

/-- The part of `get_open_order_count` that is of this path. -/
def openOrderCount (state : FastState) (trader mode : String) : ℕ :=
  state.submissions.countEntries fun key submission => key.1 = trader && submission.mode = mode && submission.stage = .settled true

/-- The cap check; `others` are the orders of the trader and mode that the hot state counts as open and that are not of this path. -/
def capReached (state : FastState) (trader mode : String) (cap : Option ℤ) (others : ℕ) : Bool :=
  cap.any fun n => decide (0 < n) && decide (n ≤ ((others + openOrderCount state trader mode + openIntentCount state trader : ℕ) : ℤ))

inductive FastEvent where
  | call (key : Key) (mode : String) (cap : Option ℤ) (others : ℕ)
  | skipped (key : Key)
  | answered (key : Key) (status : OrderStatus)
  | ambiguous (key : Key)
  | persist (key : Key)
  | persistFailed (key : Key)
  | finish (key : Key) (recorded : Bool)
  | sweepStart (sweep : ℕ)
  | sweepLookup (sweep : ℕ)
  | sweepAct (sweep : ℕ)
  | sweepCommit (sweep : ℕ)
  | sweepFail (sweep : ℕ)
  | crash (forgotten reopened : List Key)

def setStage (state : FastState) (key : Key) (submission : Submission) (stage : Stage) : FastState :=
  { state with submissions := state.submissions.set key { submission with stage := stage } }

/-- The critical section of a call: dedup, cap and intent under the trader's lock, without an await between them. -/
def fire (state : FastState) (key : Key) (mode : String) (cap : Option ℤ) (others : ℕ) : FastState :=
  let called := { state with calls := state.calls ++ [(key.1, cap)] }
  if (state.intents.get? key).isSome then called
  else if capReached state key.1 mode cap others then called
  else
    { called with
      intents := state.intents.set key ⟨mode, true⟩
      submissions := state.submissions.set key ⟨mode, .onWire⟩
      held := if mode = "live" then state.held ++ [key] else state.held
      started := state.started ++ [key] }

/-- `session.merge` of recovery rows, committed. -/
def mergeRecovery (rows : List Row) (staged : List Key) : List Row :=
  staged.foldl (fun rows key => if (⟨key, true⟩ : Row) ∈ rows then rows else rows ++ [⟨key, true⟩]) rows

/-- A sweep closes an intent; the ambiguous call behind it is resolved unless a recovery row has yet to resolve it. -/
def recoverIntent (state : FastState) (key : Key) (resolved : Bool) : FastState :=
  let closed := { state with intents := closeIntent state.intents key }
  match state.submissions.get? key with
  | some submission => if resolved ∧ submission.stage = .unresolved then setStage closed key submission (.settled false) else closed
  | none => closed

/-- What a sweep does with its next intent, after the lookup for a live one. -/
def sweepAct (state : FastState) (id : ℕ) (sweep : Sweep) : FastState :=
  match sweep.remaining with
  | [] => state
  | (key, mode) :: rest =>
    if mode ≠ "live" then
      { recoverIntent state key true with sweeps := state.sweeps.set id { sweep with remaining := rest, found := none } }
    else match sweep.found with
      | none => state
      | some true => { recoverIntent state key true with sweeps := state.sweeps.set id { sweep with remaining := rest, found := none } }
      | some false =>
        { recoverIntent state key false with
          sweeps := state.sweeps.set id { sweep with remaining := rest, found := none, staged := sweep.staged ++ [key] } }

/-- After a crash: results that were not synced are lost, and finished intents that a compaction dropped are not known. -/
def restartIntents (intents : Dict Key Intent) (forgotten reopened : List Key) : Dict Key Intent :=
  forgotten.foldl (fun known key => if (known.get? key).any Intent.isOpen then known else known.erase key)
    (intents.mapValues fun key intent => if key ∈ reopened then { intent with isOpen := true } else intent)

def fastStep (state : FastState) : FastEvent → FastState
  | .call key mode cap others => fire state key mode cap others
  | .skipped key =>
    match state.submissions.get? key with
    | some submission =>
      if submission.stage = .onWire then
        { setStage state key submission (.settled false) with
          intents := closeIntent state.intents key
          held := state.held.filter (· ≠ key) }
      else state
    | none => state
  | .answered key status =>
    match state.submissions.get? key with
    | some submission => if submission.stage = .onWire then setStage state key submission (.answered status) else state
    | none => state
  | .ambiguous key =>
    match state.submissions.get? key with
    | some submission => if submission.stage = .onWire then setStage state key submission .unresolved else state
    | none => state
  | .persist key =>
    match state.submissions.get? key with
    | some submission =>
      match submission.stage with
      | .answered status => { setStage state key submission (.persisted status) with rows := state.rows ++ [⟨key, false⟩] }
      | _ => state
    | none => state
  | .persistFailed key =>
    match state.submissions.get? key with
    | some submission =>
      match submission.stage with
      | .answered _ | .persisted _ => setStage state key submission .unresolved
      | _ => state
    | none => state
  | .finish key recorded =>
    match state.submissions.get? key with
    | some submission =>
      match submission.stage with
      | .persisted status =>
        { setStage state key submission (.settled status.countsOpen) with
          intents := if recorded then closeIntent state.intents key else state.intents }
      | _ => state
    | none => state
  | .sweepStart sweep =>
    if (state.sweeps.get? sweep).isSome then state
    else
      let opened := (state.intents.entries.filter fun entry => entry.2.isOpen).map fun entry => (entry.1, entry.2.mode)
      { state with sweeps := state.sweeps.set sweep ⟨opened, none, []⟩ }
  | .sweepLookup sweep =>
    match state.sweeps.get? sweep with
    | some running =>
      match running.remaining with
      | (key, _) :: _ =>
        { state with sweeps := state.sweeps.set sweep { running with found := some (state.rows.any fun row => row.key = key) } }
      | [] => state
    | none => state
  | .sweepAct sweep => (state.sweeps.get? sweep).elim state (sweepAct state sweep)
  | .sweepCommit sweep =>
    match state.sweeps.get? sweep with
    | some running =>
      if running.remaining = [] then
        { state with rows := mergeRecovery state.rows running.staged, sweeps := state.sweeps.erase sweep }
      else state
    | none => state
  | .sweepFail sweep => { state with sweeps := state.sweeps.erase sweep }
  | .crash forgotten reopened =>
    { state with
      intents := restartIntents state.intents forgotten reopened
      submissions := Dict.empty
      sweeps := Dict.empty }

end Callisto.Fast
