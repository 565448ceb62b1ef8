import Callisto.Bus.Parquet
import Callisto.Recorder.WindowCompactor
import Mathlib.Data.List.Lex

/-! The replay of book topics from the canonical external layout: window directories with a bundle or with files of one token each. -/

namespace Callisto.Bus.External

open Callisto.Library
open Callisto.Recorder (Kind)

variable {γ : Type}

/-- A row of a snapshot or delta file; its other columns are those of the kind. -/
structure BookRow (γ : Type) where
  tokenId : String
  observedAtUs : ℤ
  sequence : Option ℤ
  columns : γ
  named : tokenId ≠ ""
  deriving DecidableEq

/-- A file that `parquet_path_for` names for a token. -/
structure TokenFile (γ : Type) where
  tokenId : String
  rows : List (BookRow γ)
  own : ∀ row ∈ rows, row.tokenId = tokenId

/-- What a window directory holds of a kind: a bundle of the compactor, or files of one token each. -/
inductive WindowContent (γ : Type) where
  | bundle (rows : List (BookRow γ))
  | tokenFiles (files : List (TokenFile γ))

def WindowContent.rows : WindowContent γ → List (BookRow γ)
  | .bundle rows => rows
  | .tokenFiles files => files.flatMap TokenFile.rows

structure ExternalEvent (γ : Type) where
  entityId : String
  observedAtUs : ℤ
  ingestedAtUs : ℤ
  source : String
  sequence : Option ℤ
  columns : γ
  provider : String
  deriving DecidableEq

/-! ## File names -/

/-- `str.isalnum` of a character, and SHA-256 as a hexadecimal text. -/
structure NameOps where
  isAlnum : Char → Bool
  sha256 : String → String

variable (ops : NameOps)

/-- `_safe_segment` -/
def safeSegment (value : String) : String :=
  let cleaned := value.toList.filter fun char => ops.isAlnum char || char = '-' || char = '_'
  if cleaned.length ≤ 78 then String.ofList cleaned
  else String.ofList (cleaned.take 16 ++ '_' :: (ops.sha256 (String.ofList cleaned)).toList.take 6 ++ '_' :: cleaned.drop (cleaned.length - 8))

def kindText : Kind → String
  | .snapshots => "snapshots"
  | .deltas => "deltas"

/-- The name of a token's file, without `.parquet`. -/
def fileStem (kind : Kind) (tokenId : String) : String := kindText kind ++ "__" ++ safeSegment ops tokenId

def fileName (kind : Kind) (tokenId : String) : String := fileStem ops kind tokenId ++ ".parquet"

def isKindChar (char : Char) : Bool := ('a' ≤ char && char ≤ 'z') || ('A' ≤ char && char ≤ 'Z') || char = '_'

/-- `_FILENAME_RE`: the longest word of letters and underscores before two more underscores, and what follows them. -/
def matchStem (stem : String) : Option (String × String) :=
  let chars := stem.toList
  ((List.range chars.length).filter fun length =>
    0 < length ∧ (chars.take length).all isKindChar ∧ (chars.drop length).take 2 = ['_', '_'] ∧ length + 2 < chars.length).getLast?.map
    fun length => (String.ofList (chars.take length), String.ofList (chars.drop (length + 2)))

/-- The token that the replay reads out of the name of a token's file, if it takes the file to be of the kind. -/
def fileToken (kind : Kind) (tokenId : String) : Option String :=
  (matchStem (fileStem ops kind tokenId)).bind fun (fileKind, token) => if fileKind = kindText kind then some token else none

/-! ## Discovery -/

/-- A window directory: its path below `storage_uri`, and the window of its name, in microseconds. -/
structure WindowDir (γ : Type) where
  path : List String
  startUs : ℤ
  endUs : ℤ
  content : WindowContent γ
  below : path ≠ []
  inside : ∀ row ∈ content.rows, startUs ≤ row.observedAtUs ∧ row.observedAtUs ≤ endUs

/-- The window directories below a `storage_uri`, as they hold one kind. Paths and file names are unique. -/
structure Tree (kind : Kind) (γ : Type) where
  root : List String
  dirs : List (WindowDir γ)
  apart : (dirs.map WindowDir.path).Nodup
  once : ∀ dir ∈ dirs, ∀ files, dir.content = .tokenFiles files → (files.map fun file => fileName ops kind file.tokenId).Nodup

variable {kind : Kind}

/-- `_find_window_dirs` goes five levels deep and does not look into window directories. -/
def WindowDir.found (dir : WindowDir γ) (dirs : List (WindowDir γ)) : Bool :=
  dir.path.length ≤ 6 && dirs.all fun other => !other.path.isPrefixOf dir.path || other.path = dir.path

def findWindowDirs (tree : Tree ops kind γ) : List (WindowDir γ) :=
  (tree.dirs.filter fun dir => dir.found tree.dirs).insertionSort fun dir other => dir.path.getLastD "" ≤ other.path.getLastD ""

def WindowDir.overlaps (dir : WindowDir γ) (window : ReplayWindow) : Bool := ¬ (dir.endUs < window.startUs ∨ window.endUs < dir.startUs)

/-- `_infer_provider_from_path`, of a file in the directory. -/
def provider (root : List String) (dir : WindowDir γ) : String :=
  if 3 ≤ (root ++ dir.path).length then (root ++ dir.path).reverse.getD 2 "external" else "external"

/-- A file that is opened: the token of its name, unless it is a bundle. -/
structure OpenedFile (γ : Type) where
  path : List String
  token : Option String
  provider : String
  rows : List (BookRow γ)

def allows (entities : Option (List String)) (token : String) : Bool := entities.all fun names => token ∈ names

/-- A token's file, if its name is of the kind and its token passes the entity filter. -/
def openTokenFile (kind : Kind) (entities : Option (List String)) (root : List String) (dir : WindowDir γ) (file : TokenFile γ) :
    Option (OpenedFile γ) :=
  match fileToken ops kind file.tokenId with
  | some token =>
    if allows entities token then some ⟨dir.path ++ [fileName ops kind file.tokenId], some token, provider root dir, file.rows⟩ else none
  | none => none

def openFiles (kind : Kind) (entities : Option (List String)) (root : List String) (dir : WindowDir γ) : List (OpenedFile γ) :=
  match dir.content with
  | .bundle rows =>
    if entities = none ∨ (rows.any fun row => allows entities row.tokenId) then
      [⟨dir.path ++ [kindText kind ++ ".parquet"], none, provider root dir, rows⟩]
    else []
  | .tokenFiles files =>
    (files.insertionSort fun file other => fileName ops kind file.tokenId ≤ fileName ops kind other.tokenId).filterMap
      (openTokenFile ops kind entities root dir)

def discover (window : ReplayWindow) (entities : Option (List String)) (tree : Tree ops kind γ) : List (OpenedFile γ) :=
  ((findWindowDirs ops tree).filter fun dir => dir.overlaps window).flatMap (openFiles ops kind entities tree.root)

/-! ## Reading -/

def covers (window : ReplayWindow) (row : BookRow γ) : Bool := window.startUs ≤ row.observedAtUs && row.observedAtUs < window.endUs

def toEvent (provider : String) (row : BookRow γ) : ExternalEvent γ :=
  ⟨row.tokenId, row.observedAtUs, row.observedAtUs, "external_import", row.sequence, row.columns, provider⟩

/-- What `_read_snapshot_rows` and `_read_delta_rows` keep of a file. An envelope must have a positive time. -/
def keepsRow (window : ReplayWindow) (entities : Option (List String)) (token : Option String) (row : BookRow γ) : Bool :=
  covers window row && (token.all fun token => row.tokenId = token) && (token.isSome || allows entities row.tokenId) && 0 < row.observedAtUs

def rowKey (event : ExternalEvent γ) : ℤ ×ₗ ℤ := toLex (event.observedAtUs, event.sequence.getD 0)

def readRows (window : ReplayWindow) (entities : Option (List String)) (file : OpenedFile γ) : List (ExternalEvent γ) :=
  ((file.rows.filter (keepsRow window entities file.token)).map (toEvent file.provider)).insertionSort fun event other => rowKey event ≤ rowKey other

/-- The key of a stream in the heap: a token, or `bundle:` with a path. -/
abbrev StreamKey := String ×ₗ List String

def tokenFiles (opened : List (OpenedFile γ)) (token : String) : List (OpenedFile γ) :=
  (opened.filter fun file => file.token = some token).insertionSort fun file other => file.path ≤ other.path

/-- `iterators` -/
def streams (window : ReplayWindow) (entities : Option (List String)) (opened : List (OpenedFile γ)) : List (StreamKey × List (ExternalEvent γ)) :=
  ((opened.filterMap OpenedFile.token).dedup.map fun token => (toLex (token, []), (tokenFiles opened token).flatMap (readRows window entities))) ++
  ((opened.filter fun file => file.token = none).map fun file => (toLex ("bundle:", file.path), readRows window entities file))

/-- `external_parquet_replayer` of a topic of the kind. -/
def externalParquetReplayer (window : ReplayWindow) (slug : String) (tree : Tree ops kind γ) : List (ExternalEvent γ) :=
  let entities := window.entities slug
  (mergeStreams ExternalEvent.observedAtUs (streams window entities (discover ops window entities tree))).map Prod.snd

end Callisto.Bus.External
