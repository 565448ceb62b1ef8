import Callisto.Ws.Payload
import Mathlib.Data.Prod.Lex
import Mathlib.Data.String.Basic

/-! The recorded events of the bus, and the windows in which they are replayed. -/

namespace Callisto.Bus

open Callisto.Ws (Fields)

/-- `topic.split(".")` -/
def topicParts : List Char → List (List Char)
  | [] => [[]]
  | char :: rest =>
    if char = '.' then [] :: topicParts rest
    else
      match topicParts rest with
      | [] => [[char]]
      | part :: parts => (char :: part) :: parts

/-- `_TOPIC_PART`. The end of the pattern also matches before a last line feed. -/
def isTopicPart (part : List Char) : Bool :=
  match if part.getLast? = some '\n' then part.dropLast else part with
  | [] => false
  | first :: rest =>
    ('a' ≤ first && first ≤ 'z') && rest.all fun char => ('a' ≤ char && char ≤ 'z') || char.isDigit || char = '_'

/-- What `parse_topic` accepts. -/
def isTopic (topic : String) : Bool :=
  let parts := topicParts topic.toList
  2 ≤ parts.length && parts.length ≤ 5 && parts.all isTopicPart

/-- A validated envelope. Times are microseconds since the epoch. -/
structure RecordedEvent where
  topic : String
  entityId : String
  observedAtUs : ℤ
  payload : Fields
  source : String := "unknown"
  sequence : Option ℤ := none
  ingestedAtUs : ℤ
  schemaVersion : ℤ := 1
  named : isTopic topic = true
  identified : entityId ≠ ""
  observed : 0 < observedAtUs
  ingested : 0 < ingestedAtUs
  forward : observedAtUs ≤ ingestedAtUs + 1000000
  sourced : source ≠ ""
  versioned : 1 ≤ schemaVersion

inductive TimeField where
  | observedAtUs
  | ingestedAtUs
  deriving DecidableEq

/-- `getattr(event, time_field)` -/
def RecordedEvent.time (event : RecordedEvent) : TimeField → ℤ
  | .observedAtUs => event.observedAtUs
  | .ingestedAtUs => event.ingestedAtUs

abbrev ReplayKey := ℤ ×ₗ ℤ ×ₗ String ×ₗ String

/-- `_replay_order_key`, and `_entity_order_key` -/
def replayOrderKey (field : TimeField) (event : RecordedEvent) : ReplayKey :=
  toLex (event.time field, toLex (event.sequence.getD 0, toLex (event.topic, event.entityId)))

structure ReplayWindow where
  startUs : ℤ
  endUs : ℤ
  topics : List String
  entityFilter : Option (List (String × List String)) := none
  timeField : TimeField := .observedAtUs
  ordered : startUs < endUs
  nonempty : topics ≠ []

theorem time_le_of_key {field : TimeField} {one other : RecordedEvent} (below : replayOrderKey field one ≤ replayOrderKey field other) :
    one.time field ≤ other.time field := by
  cases Prod.Lex.toLex_le_toLex.1 below with
  | inl less => exact less.le
  | inr equal => exact equal.1.le

theorem isTopic_bookFeed : isTopic "book.feed" = true := by decide +kernel

/-- An event of the topic `book.feed` with a sequence number, observed at 1. -/
def bookEvent (sequence : ℤ) : RecordedEvent where
  topic := "book.feed"
  entityId := "token"
  observedAtUs := 1
  payload := []
  sequence := some sequence
  ingestedAtUs := 1
  named := isTopic_bookFeed
  identified := by decide
  observed := by decide
  ingested := by decide
  forward := by decide
  sourced := by decide
  versioned := by decide

def bookWindow : ReplayWindow where
  startUs := 0
  endUs := 2
  topics := ["book.feed"]
  ordered := by decide
  nonempty := by decide

end Callisto.Bus
