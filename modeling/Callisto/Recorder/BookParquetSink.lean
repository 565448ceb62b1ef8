import Mathlib.Algebra.Order.Ring.Int
import Callisto.Library.Dict
import Callisto.Recorder.WindowCompactor

/-! The sink that buffers book rows and drains them into part files, one step between two awaits each. -/

namespace Callisto.Recorder

open Callisto.Library Callisto.Library.Runs

variable {γ : Type}

/-- A row that is handed over; the other columns are in `cells`. -/
structure RawRow (γ : Type) where
  tokenId : String
  observedAtUs : Option ℤ
  cells : γ

structure Row (γ : Type) where
  tokenId : String
  observedAtUs : ℤ
  cells : γ
  deriving DecidableEq

structure BufferKey where
  kind : Kind
  bucket : ℤ
  deriving DecidableEq

def windowSeconds : ℤ := 900

def maxBufferedRows : ℤ := 200000

def RawRow.convert (raw : RawRow γ) : Option (Row γ) :=
  if raw.tokenId = "" then none
  else raw.observedAtUs.map fun observedAtUs => ⟨raw.tokenId, observedAtUs, raw.cells⟩

def bucketOf (row : Row γ) : ℤ := row.observedAtUs / 1000000 / windowSeconds * windowSeconds

structure PartWrite (γ : Type) where
  key : BufferKey
  seq : ℕ
  drained : List (Row γ)

/-- The await at which the flush is, with the keys it has still to drain. -/
inductive FlushPhase (γ : Type) where
  | idle
  | guarding
  | pruning
  | writing (part : PartWrite γ) (keys : List BufferKey)

/-- The fields of the sink, its flush and the part files. A part write whose flush was cancelled goes on in
`orphans`; `accepted` and `discarded` record the rows taken over and the rows dropped, `overwritten` and `raised`
whether a part file was replaced and whether a flush raised. -/
structure Sink (γ : Type) where
  buf : Dict BufferKey (List (Row γ)) := Dict.empty
  partSeq : Dict BufferKey ℕ := Dict.empty
  bufferedRows : ℤ := 0
  dropped : ℤ := 0
  written : ℤ := 0
  phase : FlushPhase γ := .idle
  files : Dict (BufferKey × ℕ) (List (Row γ)) := Dict.empty
  orphans : List (PartWrite γ) := []
  accepted : List (Row γ) := []
  discarded : List (Row γ) := []
  overwritten : Bool := false
  raised : Bool := false

namespace Sink

def add (kind : Kind) (sink : Sink γ) (row : Row γ) : Sink γ :=
  let key : BufferKey := ⟨kind, bucketOf row⟩
  { sink with
    buf := sink.buf.set key ((sink.buf.get? key).getD [] ++ [row])
    bufferedRows := sink.bufferedRows + 1
    accepted := sink.accepted ++ [row] }

def oldestKey : List BufferKey → Option BufferKey
  | [] => none
  | key :: rest =>
    match oldestKey rest with
    | none => some key
    | some other => if key.bucket ≤ other.bucket then some key else some other

def dropOldest (sink : Sink γ) : Sink γ :=
  match oldestKey (sink.buf.entries.map Prod.fst) with
  | none => sink
  | some oldest =>
    let rows := (sink.buf.get? oldest).getD []
    { sink with
      buf := sink.buf.erase oldest
      bufferedRows := sink.bufferedRows - rows.length
      dropped := sink.dropped + rows.length
      discarded := sink.discarded ++ rows }

def write (sink : Sink γ) (rows : List (RawRow γ)) (kind : Kind) : Sink γ :=
  let sink := (rows.filterMap RawRow.convert).foldl (add kind) sink
  if maxBufferedRows < sink.bufferedRows then sink.dropOldest else sink

def nextPartSequence (files : Dict (BufferKey × ℕ) (List (Row γ))) (key : BufferKey) : ℕ :=
  (((files.entries.map Prod.fst).filter fun name => name.1 = key).map fun name => name.2 + 1).foldr max 0

/-- Goes on with the next key that has rows; the others are forgotten on the way. -/
def drainNext (sink : Sink γ) : List BufferKey → Sink γ
  | [] => { sink with phase := .idle, bufferedRows := max sink.bufferedRows 0 }
  | key :: rest =>
    match sink.buf.get? key with
    | none | some [] => drainNext { sink with buf := sink.buf.erase key, partSeq := sink.partSeq.erase key } rest
    | some (row :: rows) =>
      let known := (sink.partSeq.get? key).getD 0
      let seq := if known = 0 then nextPartSequence sink.files key else known
      { sink with buf := sink.buf.set key [], phase := .writing ⟨key, seq, row :: rows⟩ rest }

/-- The disk guard has answered; a guard that fails lets the flush go on. -/
def guarded (sink : Sink γ) (blocked : Bool) : Sink γ :=
  if blocked then
    { sink with
      dropped := sink.dropped + sink.bufferedRows
      discarded := sink.discarded ++ sink.buf.values.flatten
      buf := Dict.empty
      partSeq := Dict.empty
      bufferedRows := 0
      phase := .pruning }
  else sink.drainNext (sink.buf.entries.map Prod.fst)

def rowLe (first second : Row γ) : Bool :=
  decide (first.tokenId < second.tokenId ∨ first.tokenId = second.tokenId ∧ first.observedAtUs ≤ second.observedAtUs)

def putFile (sink : Sink γ) (part : PartWrite γ) : Sink γ :=
  { sink with
    files := sink.files.set (part.key, part.seq) (part.drained.mergeSort rowLe)
    overwritten := sink.overwritten || (sink.files.get? (part.key, part.seq)).isSome }

/-- The flush learns that its part is written, forgets a closed window that is drained, and goes on. -/
def partWritten (sink : Sink γ) (part : PartWrite γ) (keys : List BufferKey) (currentBucket : ℤ) : Sink γ :=
  let sink := sink.putFile part
  let sink := { sink with
    partSeq := sink.partSeq.set part.key (part.seq + 1)
    written := sink.written + part.drained.length
    bufferedRows := sink.bufferedRows - part.drained.length }
  if part.key.bucket < currentBucket ∧ (sink.buf.get? part.key).getD [] = [] then
    drainNext { sink with buf := sink.buf.erase part.key, partSeq := sink.partSeq.erase part.key } keys
  else sink.drainNext keys

def partFailed (sink : Sink γ) (part : PartWrite γ) (keys : List BufferKey) : Sink γ :=
  match sink.buf.get? part.key with
  | some later => drainNext { sink with buf := sink.buf.set part.key (part.drained ++ later) } keys
  | none => { sink with phase := .idle, raised := true }

/-- `stop` cancels the loop at its await; a thread that writes a part goes on. -/
def cancel (sink : Sink γ) : Sink γ :=
  match sink.phase with
  | .writing part _ => { sink with phase := .idle, orphans := sink.orphans ++ [part] }
  | _ => { sink with phase := .idle }

inductive Event (γ : Type) where
  | write (rows : List (RawRow γ)) (kind : Kind)
  | flush
  | guardAnswers (blocked : Bool)
  | pruned
  | partDone (currentBucket : ℤ)
  | partFails
  | cancel
  | orphanDone (index : ℕ)
  | orphanFails (index : ℕ)

def step (sink : Sink γ) : Event γ → Sink γ
  | .write rows kind => sink.write rows kind
  | .flush =>
    match sink.phase with
    | .idle => { sink with phase := .guarding }
    | _ => sink
  | .guardAnswers blocked =>
    match sink.phase with
    | .guarding => sink.guarded blocked
    | _ => sink
  | .pruned =>
    match sink.phase with
    | .pruning => { sink with phase := .idle }
    | _ => sink
  | .partDone currentBucket =>
    match sink.phase with
    | .writing part keys => sink.partWritten part keys currentBucket
    | _ => sink
  | .partFails =>
    match sink.phase with
    | .writing part keys => sink.partFailed part keys
    | _ => sink
  | .cancel => sink.cancel
  | .orphanDone index =>
    match sink.orphans[index]? with
    | some part => { sink.putFile part with orphans := sink.orphans.eraseIdx index }
    | none => sink
  | .orphanFails index => { sink with orphans := sink.orphans.eraseIdx index }

def inFlight (sink : Sink γ) : List (Row γ) :=
  (match sink.phase with
    | .writing part _ => part.drained
    | _ => []) ++ (sink.orphans.map PartWrite.drained).flatten

/-- No row is lost or counted twice, no part file replaced, and no flush has raised. -/
structure Accounted [DecidableEq γ] (sink : Sink γ) : Prop where
  buffered : sink.bufferedRows = (sink.buf.values.flatten.length : ℤ) + sink.inFlight.length
  once : ∀ row, sink.accepted.count row =
    sink.buf.values.flatten.count row + sink.inFlight.count row + sink.files.values.flatten.count row + sink.discarded.count row
  dropped : sink.dropped = sink.discarded.length
  written : sink.written = (sink.files.values.flatten.length : ℤ)
  kept : sink.overwritten = false
  quiet : sink.raised = false

end Sink

end Callisto.Recorder
