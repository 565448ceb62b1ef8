import Callisto.Bus.Envelope
import Callisto.Library.Merge

/-! The parquet backend of the bus: a write ring whose buckets are flushed to files, and the replay of a topic from them. -/

namespace Callisto.Bus

open Callisto.Library

abbrev BucketKey := String × String × ℤ

structure WriteRing where
  buckets : List (BucketKey × List RecordedEvent) := []
  total : ℕ := 0

def maxRingSize : ℕ := 5000

def flushBatchSize : ℕ := 500

/-- A file of a partition, with its rows as they are read back. -/
structure ParquetFile where
  segment : String
  day : ℤ
  name : String
  rows : List RecordedEvent

/-- The platform: the UTC day of a time in microseconds, and SHA-1 as a hexadecimal text. -/
structure Platform where
  utcDay : ℤ → ℤ
  sha1 : String → String

variable (platform : Platform)

def bucketKey (event : RecordedEvent) : BucketKey := (event.topic, event.entityId, platform.utcDay event.observedAtUs)

def addEvent (key : BucketKey) (event : RecordedEvent) : List (BucketKey × List RecordedEvent) → List (BucketKey × List RecordedEvent)
  | [] => [(key, [event])]
  | bucket :: rest => if bucket.1 = key then (key, bucket.2 ++ [event]) :: rest else bucket :: addEvent key event rest

/-- `_drop_one_oldest`: the first event of the largest bucket goes. -/
def dropOneOldest (ring : WriteRing) : WriteRing :=
  match ring.buckets.argmax fun bucket => bucket.2.length with
  | none => ring
  | some largest =>
    { buckets := (ring.buckets.map fun bucket => if bucket.1 = largest.1 then (bucket.1, bucket.2.tail) else bucket).filter
        fun bucket => bucket.2 ≠ []
      total := ring.total - 1 }

/-- `offer` -/
def WriteRing.offer (event : RecordedEvent) (ring : WriteRing) : WriteRing :=
  let added : WriteRing := ⟨addEvent (bucketKey platform event) event ring.buckets, ring.total + 1⟩
  if maxRingSize < added.total then dropOneOldest added else added

/-- `drain_all` and `drain_full_batches`: the batches, and the ring that is left. -/
def WriteRing.drain (everything : Bool) (ring : WriteRing) : List (BucketKey × List RecordedEvent) × WriteRing :=
  if everything then (ring.buckets.filter fun bucket => bucket.2 ≠ [], {})
  else
    let full := ring.buckets.filter fun bucket => flushBatchSize ≤ bucket.2.length
    let kept := ring.buckets.filter fun bucket => ¬flushBatchSize ≤ bucket.2.length
    (full, ⟨kept, ring.total - (full.map fun bucket => bucket.2.length).sum⟩)

/-- `_safe_segment` -/
def safeSegment (value : String) : String :=
  let cleaned := value.toList.map fun char =>
    if char.isAlpha || char.isDigit || char = '.' || char = '_' || char = '-' then char else '-'
  if cleaned.length ≤ 64 then String.ofList cleaned
  else String.ofList (cleaned.take 55 ++ '-' :: (platform.sha1 value).toList.take 8)

structure ParquetStore where
  files : List ParquetFile := []
  written : ℕ := 0

/-- `_write_parquet_batch`: the file takes its place in the partition, under a name from the clock and a UUID. -/
def writeBatch (names : ℕ → String) (store : ParquetStore) (batch : BucketKey × List RecordedEvent) : ParquetStore :=
  let file : ParquetFile := ⟨safeSegment platform batch.1.2.1, batch.1.2.2, names store.written, batch.2⟩
  { files := (store.files.filter fun other => ¬(other.segment = file.segment ∧ other.day = file.day ∧ other.name = file.name)) ++ [file]
    written := store.written + 1 }

/-- What happens to the writer: an event is published, or a flush runs. -/
inductive WriterStep where
  | offer (event : RecordedEvent)
  | flush (everything : Bool)

structure Writer where
  ring : WriteRing := {}
  store : ParquetStore := {}

def Writer.step (names : ℕ → String) (writer : Writer) : WriterStep → Writer
  | .offer event => { writer with ring := writer.ring.offer platform event }
  | .flush everything =>
    let drained := writer.ring.drain everything
    ⟨drained.2, drained.1.foldl (writeBatch platform names) writer.store⟩

def Writer.run (names : ℕ → String) (steps : List WriterStep) (writer : Writer) : Writer := steps.foldl (Writer.step platform names) writer

def ReplayWindow.covers (window : ReplayWindow) (event : RecordedEvent) : Bool :=
  window.startUs ≤ event.time window.timeField && event.time window.timeField < window.endUs

/-- The entities of a topic that the window asks for, if it asks for some. -/
def ReplayWindow.entities (window : ReplayWindow) (slug : String) : Option (List String) :=
  window.entityFilter.bind fun filter => filter.lookup slug

def ReplayWindow.reads (window : ReplayWindow) (day : ℤ) : Bool :=
  platform.utcDay window.startUs - 1 ≤ day && day ≤ platform.utcDay window.endUs + 1

def windowDays (window : ReplayWindow) : List ℤ :=
  (List.range (platform.utcDay window.endUs - platform.utcDay window.startUs + 3).toNat).map fun offset : ℕ =>
    platform.utcDay window.startUs - 1 + (offset : ℤ)

/-- `_prune_files_to_window` keeps the file. Its footer has the least and the greatest time of the rows. -/
def keepsFile (window : ReplayWindow) (file : ParquetFile) : Bool :=
  let times := file.rows.map fun event => event.time window.timeField
  match times.min?, times.max? with
  | some low, some high => ¬(high < window.startUs ∨ window.endUs ≤ low)
  | _, _ => true

def rowKey (field : TimeField) (event : RecordedEvent) : ℤ ×ₗ ℤ := toLex (event.time field, event.sequence.getD 0)

/-- `_read_file_rows` -/
def readFileRows (window : ReplayWindow) (file : ParquetFile) : List RecordedEvent :=
  (file.rows.filter window.covers).mergeSort fun one other => rowKey window.timeField one ≤ rowKey window.timeField other

def partitionFiles (files : List ParquetFile) (window : ReplayWindow) (segment : String) (day : ℤ) : List ParquetFile :=
  ((files.filter fun file => file.segment = segment ∧ file.day = day).mergeSort fun one other => one.name ≤ other.name).filter
    (keepsFile window)

/-- `_entity_stream` -/
def entityStream (files : List ParquetFile) (window : ReplayWindow) (segment : String) : List RecordedEvent :=
  (windowDays platform window).flatMap fun day => (partitionFiles files window segment day).flatMap (readFileRows window)

/-- The directories that are read: those of the entities asked for, or all. A listing has no `.` and no `..`. -/
def entityDirs (files : List ParquetFile) (window : ReplayWindow) (slug : String) : List String :=
  match window.entities slug with
  | some entities => (entities.map (safeSegment platform)).dedup.filter fun segment => segment ∈ files.map ParquetFile.segment
  | none => (files.map ParquetFile.segment).dedup.filter fun segment => segment ≠ "." ∧ segment ≠ ".."

/-- `parquet_replayer` -/
def parquetReplayer (files : List ParquetFile) (window : ReplayWindow) (slug : String) : List RecordedEvent :=
  (mergeStreams (replayOrderKey window.timeField) ((entityDirs platform files window slug).map fun segment =>
    (segment, entityStream platform files window segment))).map Prod.snd

end Callisto.Bus
