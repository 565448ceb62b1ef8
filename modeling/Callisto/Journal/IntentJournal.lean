import Callisto.Library.JsonText
import Callisto.Library.Runs
import Callisto.Ws.Payload

/-! The intent journal of the fast path: an append-only file of JSON lines, and the index over it. -/

namespace Callisto.Journal

open Callisto.Library JsonText
open Callisto.Ws (strip)

/-- A journal line, as `json.loads` gives it. -/
abbrev Record := List (String × Json)

abbrev Key := String × String

/-- `rec.get`, where the last of equal names counts. -/
def Record.get (record : Record) (name : String) : Option Json := (record.reverse.find? fun field => field.1 = name).map Prod.snd

/-- A string that is there and not empty; the journal writes nothing else under these names. -/
def Record.text (record : Record) (name : String) : Option String :=
  match record.get name with
  | some (.string text) => if text = "" then none else some text
  | _ => none

def Record.key (record : Record) : Option Key :=
  match record.text "tr", record.text "sig" with
  | some trader, some signal => some (trader, signal)
  | _, _ => none

inductive IntentState where
  | opened
  | finished
  deriving DecidableEq

structure Memory where
  index : Dict Key IntentState
  openRecords : Dict Key Record

def noMemory : Memory := ⟨Dict.empty, Dict.empty⟩

def terminalResultStatuses : List String := ["executed", "failed", "cancelled", "skipped", "recovered"]

section Calls

variable (lower : String → String)

def Record.isIntent (record : Record) : Bool := record.text "k" = some "intent"

/-- A result with a terminal status; `lower` is `str.lower`. -/
def Record.isTerminal (record : Record) : Bool :=
  record.text "k" = some "result" && lower (strip ((record.text "st").getD "")) ∈ terminalResultStatuses

/-- `_apply_record_locked` -/
def Memory.apply (memory : Memory) (record : Record) : Memory :=
  match record.key with
  | none => memory
  | some key =>
    if record.isIntent then ⟨memory.index.set key .opened, memory.openRecords.set key record⟩
    else if record.isTerminal lower then ⟨memory.index.set key .finished, memory.openRecords.erase key⟩
    else if record.text "k" = some "result" then
      ⟨if (memory.index.get? key).isSome then memory.index else memory.index.set key .opened, memory.openRecords⟩
    else memory

/-- `bytes.split` at the newlines. -/
def lines : List Char → List (List Char)
  | [] => [[]]
  | char :: rest =>
    if char = '\n' then [] :: lines rest
    else match lines rest with
      | [] => [[char]]
      | line :: others => (char :: line) :: others

def readLine (line : List Char) : Option Record :=
  match loads line with
  | some (.object record) => some record
  | _ => none

/-- `load` -/
def load (text : List Char) : Memory := ((lines text).filterMap readLine).foldl (Memory.apply lower) noMemory

def line (record : Record) : List Char := dumps (.object record) ++ ['\n']

def Memory.hasIntent (memory : Memory) (key : Key) : Bool := (memory.index.get? key).isSome

def Memory.isOpen (memory : Memory) (key : Key) : Bool := memory.index.get? key = some .opened

def Memory.openIntents (memory : Memory) : List Record := memory.openRecords.values

/-- The arguments of `record_intent`, with the time that the call takes. -/
structure IntentCall where
  traderId : String
  signalId : String
  key : String
  tokenId : Option String
  side : Option String
  sizeUsd : Option NumberText
  marketId : Option String
  mode : Option String
  time : NumberText

/-- The arguments of `record_result`. -/
structure ResultCall where
  traderId : String
  signalId : String
  status : String
  providerClobOrderId : Option String
  providerOrderId : Option String
  time : NumberText

inductive Call where
  | intent (call : IntentCall)
  | result (call : ResultCall)

def ofText (text : Option String) : Json := text.elim .null .string

def ofNumber (number : Option NumberText) : Json := number.elim .null .number

def Call.record : Call → Record
  | .intent call =>
    [("k", .string "intent"), ("tr", .string call.traderId), ("sig", .string call.signalId), ("key", .string call.key),
      ("tok", ofText call.tokenId), ("sd", ofText call.side), ("usd", ofNumber call.sizeUsd), ("mkt", ofText call.marketId),
      ("md", ofText call.mode), ("ts", .number call.time)]
  | .result call =>
    [("k", .string "result"), ("tr", .string call.traderId), ("sig", .string call.signalId),
      ("st", .string (lower (strip call.status))), ("clob", ofText call.providerClobOrderId), ("poid", ofText call.providerOrderId),
      ("ts", .number call.time)]

def Call.fsync : Call → Bool
  | .intent _ => true
  | .result _ => false

def compactThresholdBytes : ℕ := 4 * 1024 * 1024

/-- The file and the process: the text, how much of it is on stable storage, the bytes counted and the index. -/
structure IntentJournal where
  text : List Char
  synced : ℕ
  bytesWritten : ℕ
  memory : Memory

def noJournal : IntentJournal := ⟨[], 0, 0, noMemory⟩

def compactedText (memory : Memory) : List Char := memory.openIntents.flatMap line

/-- `_compact`; the new file is synced before it replaces the old one. -/
def compact (journal : IntentJournal) : IntentJournal :=
  let text := compactedText journal.memory
  { journal with text := text, synced := text.length, bytesWritten := text.length }

/-- The write of `_append`, with the index kept up. -/
def append (journal : IntentJournal) (call : Call) : IntentJournal :=
  let record := call.record lower
  let text := journal.text ++ line record
  { text := text
    synced := if call.fsync then text.length else journal.synced
    bytesWritten := journal.bytesWritten + (line record).length
    memory := journal.memory.apply lower record }

def compactionDue (journal : IntentJournal) : Bool := compactThresholdBytes ≤ journal.bytesWritten

/-- `record_intent` and `record_result` -/
def recordCall (journal : IntentJournal) (call : Call) : IntentJournal :=
  let appended := append lower journal call
  if compactionDue appended then compact appended else appended

/-- `open` and `load` of a new process. -/
def reopen (text : List Char) (synced : ℕ) : IntentJournal := ⟨text, synced, text.length, load lower text⟩

/-- What happens to the journal. A crash may come in a call, after its compaction has replaced the file or before; what is not
synced may be lost. -/
inductive JournalStep where
  | call (call : Call)
  | restart
  | crash (inFlight : Option Call) (kept : ℕ) (replaced : Bool)

def crashedText (journal : IntentJournal) (inFlight : Option Call) (kept : ℕ) : List Char :=
  (journal.text ++ (inFlight.elim [] fun call => line (call.record lower))).take (max journal.synced kept)

def journalStep (journal : IntentJournal) : JournalStep → IntentJournal
  | .call call => recordCall lower journal call
  | .restart => reopen lower journal.text journal.synced
  | .crash inFlight kept replaced =>
    match inFlight with
    | some call =>
      let appended := append lower journal call
      if replaced && compactionDue appended then
        reopen lower (compact appended).text (compact appended).synced
      else reopen lower (crashedText lower journal inFlight kept) journal.synced
    | none => reopen lower (crashedText lower journal none kept) journal.synced

end Calls

end Callisto.Journal
