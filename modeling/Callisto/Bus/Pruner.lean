import Callisto.Library.Dates
import Callisto.Library.JsonText
import Mathlib.Data.List.MinMax
import Mathlib.Data.List.Sort
import Mathlib.Data.PNat.Notation

/-! The pruner of the recorded event bus: an age cap and a size cap for each topic, a global size cap, and the sizes it records in the catalog. -/

namespace Callisto.Bus.Pruner

open Callisto.Library
open Callisto.Library.Dates

/-- A `*.parquet` file under the root of the file system. It holds at least its footer, so it is not empty. -/
structure StoredFile where
  path : List String
  size : ℕ
  mtime : ℤ
  nonempty : 0 < size
  deriving DecidableEq

/-- Whether `rglob` finds the file from a directory. -/
def StoredFile.under (file : StoredFile) (dir : List String) : Bool := dir.isPrefixOf file.path && dir.length < file.path.length

/-- `Path(uri)`, from the working directory. -/
def resolvePath (cwd : List String) (uri : String) : List String :=
  ((uri.toList.splitOn '/').map String.ofList).foldl
    (fun dir part => if part = "" ∨ part = "." then dir else if part = ".." then dir.dropLast else dir ++ [part])
    (if uri.toList.head? = some '/' then [] else cwd)

/-! ## The catalog -/

inductive StorageKind where
  | parquet
  | externalParquet
  | sqlTable
  | memory
  | federated
  deriving DecidableEq

def StorageKind.text : StorageKind → String
  | .parquet => "parquet"
  | .externalParquet => "external_parquet"
  | .sqlTable => "sql_table"
  | .memory => "memory"
  | .federated => "federated"

/-- The columns of `TopicCatalog` that the pruner reads and writes. `patch_topic` stores a size cap of zero as no cap. -/
structure Topic where
  slug : String
  storageKind : StorageKind
  storageUri : String
  retentionDays : Option ℤ
  maxBytes : Option ℕ+
  bytesOnDisk : ℕ
  deriving DecidableEq

/-- `slug` is the primary key. -/
structure Catalog where
  topics : List Topic
  slugs_nodup : (topics.map Topic.slug).Nodup

structure AppSettings where
  prunerEnabled : Option Bool
  globalMaxBytes : Option ℕ+

/-- `dict.get`; of two fields of one name, `json.loads` keeps the last. -/
def field (name : String) (fields : List (String × Json)) : Option Json := fields.reverse.lookup name

/-- `bool(value)` -/
def truthy : Json → Bool
  | .null => false
  | .bool value => value
  | .number value => (value.chars.takeWhile fun char => char ≠ 'e' ∧ char ≠ 'E').any fun char => char.isDigit ∧ char ≠ '0'
  | .string value => value ≠ ""
  | .array items => !items.isEmpty
  | .object fields => !fields.isEmpty

namespace Topic

/-- `_resolve_sources_from_spec` -/
def resolveSources (topic : Topic) : List (List (String × Json)) :=
  let kind := ("kind", Json.string topic.storageKind.text)
  if topic.storageUri = "" then []
  else match JsonText.loads topic.storageUri.toList with
    | some (.object config) =>
      match field "sources" config with
      | some (.array sources) => sources.filterMap fun
        | .object source => some source
        | _ => none
      | _ => if topic.storageKind = .federated then [] else [kind :: config]
    | _ => if topic.storageKind = .parquet ∨ topic.storageKind = .externalParquet then [[kind, ("uri", .string topic.storageUri)]] else []

/-- The `uri` of `resolve_writable_parquet_source`. -/
def resolveWritableParquetSource (topic : Topic) : Option Json :=
  topic.resolveSources.findSome? fun source =>
    match field "kind" source with
    | some (.string "parquet") => (field "uri" source).filter truthy
    | _ => none

/-- The directory that the parquet writer fills for a topic. Of a `uri` that is no string it makes no path. -/
def writeDir (topic : Topic) (cwd : List String) : Option (List String) :=
  match topic.resolveWritableParquetSource with
  | some (.string uri) => some (resolvePath cwd uri)
  | _ => none

def dir (topic : Topic) (cwd : List String) : List String := resolvePath cwd topic.storageUri

end Topic

/-! ## Disk usage -/

def bytes (files : List StoredFile) : ℕ := (files.map StoredFile.size).sum

/-- `_topic_dir_size_bytes` -/
def topicDirSizeBytes (dir : List String) (disk : List StoredFile) : ℕ := bytes (disk.filter (·.under dir))

/-- `_list_partition_files` -/
def listPartitionFiles (dir : List String) (disk : List StoredFile) : List StoredFile :=
  (disk.filter (·.under dir)).insertionSort fun file other => file.mtime ≤ other.mtime

/-- The name of the date directory of a topic's directory that holds the file. -/
def StoredFile.dateDir (file : StoredFile) (dir : List String) : Option String :=
  if file.under dir then
    match file.path.drop dir.length with
    | _entity :: date :: _ :: _ => some date
    | _ => none
  else none

/-- Whether `_list_partition_dirs_older_than` lists the directory that holds the file. -/
def StoredFile.isOlder (file : StoredFile) (dir : List String) (cutoff : ℤ) : Bool :=
  ((file.dateDir dir).bind strptimeDay).any (· < cutoff)

/-! ## A pass -/

inductive Cap where
  | topic (topic : Topic)
  | global
  deriving DecidableEq

structure Deletion where
  cap : Cap
  before : List StoredFile
  file : StoredFile

structure Pass where
  disk : List StoredFile
  deletions : List Deletion
  freedBytesAge : ℕ
  freedBytesPerTopic : ℕ
  freedBytesGlobal : ℕ

namespace Pass

def start (disk : List StoredFile) : Pass := ⟨disk, [], 0, 0, 0⟩

/-- `fp.unlink()` in a size cap. -/
def unlink (pass : Pass) (cap : Cap) (file : StoredFile) : Pass :=
  { pass with
    disk := pass.disk.erase file
    deletions := pass.deletions ++ [⟨cap, pass.disk, file⟩]
    freedBytesPerTopic := pass.freedBytesPerTopic + if cap = .global then 0 else file.size
    freedBytesGlobal := pass.freedBytesGlobal + if cap = .global then file.size else 0 }

/-- `_prune_topic_age`. A cutoff before the first day raises and deletes nothing: no directory is older. -/
def pruneTopicAge (pass : Pass) (dir : List String) (cutoff : ℤ) : Pass :=
  { pass with
    disk := pass.disk.filter fun file => !file.isOlder dir cutoff
    freedBytesAge := pass.freedBytesAge + bytes (pass.disk.filter fun file => file.isOlder dir cutoff) }

/-- The loop of `_prune_topic_size` over the files, oldest first; `left` is `total - freed`. -/
def pruneFiles (cap : Cap) (maxBytes : ℕ) : ℕ → List StoredFile → Pass → Pass
  | _, [], pass => pass
  | left, file :: files, pass =>
    if left ≤ maxBytes then pass else pruneFiles cap maxBytes (left - file.size) files (pass.unlink cap file)

/-- `_prune_topic_size` -/
def pruneTopicSize (pass : Pass) (topic : Topic) (dir : List String) (maxBytes : ℕ) : Pass :=
  let files := listPartitionFiles dir pass.disk
  pruneFiles (.topic topic) maxBytes (bytes files) files pass

/-- The body of the loop of `prune_once` over the topics. -/
def pruneTopic (cwd : List String) (today : ℤ) (pass : Pass) (topic : Topic) : Pass :=
  let aged := match topic.retentionDays with
    | some days => if 0 < days then pass.pruneTopicAge (topic.dir cwd) (today - days) else pass
    | none => pass
  match topic.maxBytes with
  | some maxBytes => if topic.storageKind = .parquet then aged.pruneTopicSize topic (topic.dir cwd) maxBytes else aged
  | none => aged

/-- `max(items, key=key)`: the first of the greatest. -/
abbrev largestBy {α κ : Type} [LinearOrder κ] (key : α → κ) (items : List α) : Option α := items.argmax key

/-- `sizes` of `_prune_global_size`. -/
def measure (cwd : List String) (specs : List Topic) (disk : List StoredFile) : List (Topic × ℤ) :=
  specs.map fun topic => (topic, (topicDirSizeBytes (topic.dir cwd) disk : ℤ))

/-- `sizes[slug] = size` -/
def setSize (sizes : List (Topic × ℤ)) (slug : String) (size : ℤ) : List (Topic × ℤ) :=
  sizes.map fun entry => if entry.1.slug = slug then (entry.1, size) else entry

/-- The loop of `_prune_global_size`; `left` is `total - freed`. -/
def globalRounds (cwd : List String) (maxBytes : ℕ) : ℕ → List (Topic × ℤ) → ℤ → Pass → Pass
  | 0, _, _, pass => pass
  | rounds + 1, sizes, left, pass =>
    if left ≤ maxBytes then pass
    else match largestBy Prod.snd sizes with
      | none => pass
      | some largest =>
        if largest.2 ≤ 0 then pass
        else match listPartitionFiles (largest.1.dir cwd) pass.disk with
          | [] => globalRounds cwd maxBytes rounds (setSize sizes largest.1.slug 0) left pass
          | file :: _ =>
            globalRounds cwd maxBytes rounds (setSize sizes largest.1.slug (largest.2 - file.size)) (left - file.size) (pass.unlink .global file)

/-- `_prune_global_size` -/
def pruneGlobalSize (cwd : List String) (specs : List Topic) (maxBytes : ℕ) (pass : Pass) : Pass :=
  let sizes := measure cwd specs pass.disk
  globalRounds cwd maxBytes 1000 sizes (sizes.map Prod.snd).sum pass

end Pass

namespace Catalog

/-- The topics that `prune_once` does not skip. -/
def scanned (catalog : Catalog) : List Topic :=
  catalog.topics.filter fun topic => (topic.storageKind = .parquet ∨ topic.storageKind = .externalParquet) ∧ topic.storageUri ≠ ""

/-- `parquet_specs` -/
def parquetSpecs (catalog : Catalog) : List Topic := catalog.scanned.filter fun topic => topic.storageKind = .parquet

def pruneTopics (catalog : Catalog) (cwd : List String) (today : ℤ) (disk : List StoredFile) : Pass :=
  catalog.scanned.foldl (Pass.pruneTopic cwd today) (Pass.start disk)

/-- The three caps of `prune_once`. -/
def prune (catalog : Catalog) (globalMaxBytes : Option ℕ+) (cwd : List String) (today : ℤ) (disk : List StoredFile) : Pass :=
  match globalMaxBytes with
  | some maxBytes => Pass.pruneGlobalSize cwd catalog.parquetSpecs maxBytes (catalog.pruneTopics cwd today disk)
  | none => catalog.pruneTopics cwd today disk

/-- The refresh of `bytes_on_disk`. -/
def refresh (catalog : Catalog) (cwd : List String) (disk : List StoredFile) : Catalog where
  topics := catalog.topics.map fun topic =>
    if topic ∈ catalog.scanned then { topic with bytesOnDisk := topicDirSizeBytes (topic.dir cwd) disk } else topic
  slugs_nodup := by
    rw [List.map_map]
    convert catalog.slugs_nodup using 2
    funext topic
    simp only [Function.comp_apply]
    split <;> rfl

end Catalog

inductive PruneOutcome where
  | skipped
  | pruned (pass : Pass) (catalog : Catalog)

/-- `prune_once` -/
def pruneOnce (settings : Option AppSettings) (catalog : Catalog) (cwd : List String) (today : ℤ) (disk : List StoredFile) : PruneOutcome :=
  if (settings.bind AppSettings.prunerEnabled) = some false then .skipped
  else
    let pass := catalog.prune (settings.bind AppSettings.globalMaxBytes) cwd today disk
    .pruned pass (catalog.refresh cwd pass.disk)

end Callisto.Bus.Pruner
