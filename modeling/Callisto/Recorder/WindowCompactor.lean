import Mathlib.Data.Finset.Image
import Mathlib.Data.Multiset.UnionInter
import Callisto.Library.Runs

/-! The window compactor of the recorded data: per-kind bundles from part files and per-token files. -/

namespace Callisto.Recorder

open Callisto.Library

inductive Kind where
  | snapshots
  | deltas
  deriving DecidableEq

def kinds : List Kind := [.snapshots, .deltas]

structure SourceFile (ρ : Type) where
  path : String
  part : Bool
  rows : Multiset ρ

structure ManifestEntry where
  rows : ℕ
  tokens : Finset String
  deriving DecidableEq

/-- A window directory; no two source files of a kind have one path. -/
structure WindowDir (ρ : Type) where
  sources : Kind → List (SourceFile ρ)
  distinct : ∀ kind, ((sources kind).map SourceFile.path).Nodup
  bundle : Kind → Option (Multiset ρ)
  manifest : Kind → Option ManifestEntry

inductive FileOperation (ρ : Type) where
  | replaceBundle (kind : Kind) (rows : Multiset ρ)
  | replaceManifest (entries : Kind → Option ManifestEntry)
  | unlink (kind : Kind) (path : String)

structure Readable where
  source : Kind → String → Bool
  bundle : Kind → Bool

inductive CompactError where
  | streamBundleWriteFailed (kind : Kind) (path : String)
  | unreadableSource (kind : Kind) (path : String)
  | unreadableBundle (kind : Kind)
  deriving DecidableEq

/-- The result of a run, its local variables and the file operations it makes. -/
structure Compaction (ρ : Type) where
  manifest : Kind → Option ManifestEntry
  kindsCompacted : List Kind := []
  rows : ℕ := 0
  sourceFilesRemoved : ℕ := 0
  anyWork : Bool := false
  error : Option CompactError := none
  sourcesToDelete : List (Kind × String) := []
  operations : List (FileOperation ρ) := []

section Compactor

variable {ρ : Type} [DecidableEq ρ] (token : ρ → Option String)

def tokenValues (rows : Multiset ρ) : Finset String := (rows.filterMap token).toFinset

def manifestEntry (rows : Multiset ρ) : ManifestEntry := ⟨rows.card, tokenValues token rows⟩

/-- `_verified_bundle_from_manifest` -/
def verifiedBundleFromManifest (readable : Bool) : Option (Multiset ρ) → Option ManifestEntry → Bool
  | some rows, some entry => readable && rows.card = entry.rows && tokenValues token rows = entry.tokens
  | _, _ => false

def WindowDir.looseRows (dir : WindowDir ρ) (kind : Kind) : Multiset ρ := ((dir.sources kind).map SourceFile.rows).sum

def WindowDir.bundleRows (dir : WindowDir ρ) (kind : Kind) : Multiset ρ := (dir.bundle kind).getD 0

/-- The first source of a kind that cannot be read; legacy files alone are streamed into the bundle. -/
def unreadable (readable : Readable) (dir : WindowDir ρ) (kind : Kind) : Option CompactError :=
  let torn := (dir.sources kind).find? fun file => !readable.source kind file.path
  if (dir.bundle kind).isNone && (dir.sources kind).all fun file => !file.part then
    torn.map fun file => .streamBundleWriteFailed kind file.path
  else if (dir.bundle kind).isSome && !readable.bundle kind then some (.unreadableBundle kind)
  else torn.map fun file => .unreadableSource kind file.path

/-- One kind of the loop of `compact_window_dir`. -/
def compactKind (readable : Readable) (dir : WindowDir ρ) (compaction : Compaction ρ) (kind : Kind) : Compaction ρ :=
  let loose := dir.sources kind
  if loose = [] then compaction
  else if verifiedBundleFromManifest token (readable.bundle kind) (dir.bundle kind) (compaction.manifest kind) then
    { compaction with
      anyWork := true
      sourceFilesRemoved := compaction.sourceFilesRemoved + loose.length
      operations := compaction.operations ++ loose.map fun file => .unlink kind file.path }
  else
    match unreadable readable dir kind with
    | some error => { compaction with anyWork := true, error := some error }
    | none =>
      let merged := dir.bundleRows kind + dir.looseRows kind
      { compaction with
        anyWork := true
        manifest := Function.update compaction.manifest kind (some (manifestEntry token merged))
        kindsCompacted := compaction.kindsCompacted ++ [kind]
        rows := compaction.rows + merged.card
        sourcesToDelete := compaction.sourcesToDelete ++ loose.map fun file => (kind, file.path)
        operations := compaction.operations ++ [.replaceBundle kind merged] }

/-- `compact_window_dir`, in place and with `delete_sources`. -/
def compactWindowDir (readable : Readable) (dir : WindowDir ρ) : Compaction ρ :=
  let walked := kinds.foldl (compactKind token readable dir) { manifest := dir.manifest }
  if walked.kindsCompacted = [] then walked
  else
    let removed := if walked.error = none then walked.sourcesToDelete else []
    { walked with
      sourceFilesRemoved := walked.sourceFilesRemoved + removed.length
      operations := walked.operations ++ .replaceManifest walked.manifest :: removed.map fun file => .unlink file.1 file.2 }

def WindowDir.apply (dir : WindowDir ρ) : FileOperation ρ → WindowDir ρ
  | .replaceBundle kind rows => { dir with bundle := Function.update dir.bundle kind (some rows) }
  | .replaceManifest entries => { dir with manifest := entries }
  | .unlink kind path => { dir with
      sources := Function.update dir.sources kind ((dir.sources kind).filter fun file => file.path ≠ path)
      distinct := by
        intro other
        by_cases same : other = kind
        · subst same
          rw [Function.update_self]
          exact (dir.distinct other).sublist (List.filter_sublist.map _)
        · rw [Function.update_of_ne same]
          exact dir.distinct other }

def WindowDir.add (dir : WindowDir ρ) (kind : Kind) (file : SourceFile ρ) : WindowDir ρ :=
  if new : file.path ∉ (dir.sources kind).map SourceFile.path then
    { dir with
      sources := Function.update dir.sources kind (dir.sources kind ++ [file])
      distinct := by
        intro other
        by_cases same : other = kind
        · subst same
          rw [Function.update_self, List.map_append, List.nodup_append]
          refine ⟨dir.distinct other, List.nodup_singleton _, ?_⟩
          intro path member last single equal
          rw [List.map_singleton, List.mem_singleton] at single
          exact new (single ▸ equal ▸ member)
        · rw [Function.update_of_ne same]
          exact dir.distinct other }
  else dir

/-- What happens to a window: a recorded file, or a run of the compactor, to its end or crashed after some file operations. -/
inductive WindowStep (ρ : Type) where
  | record (kind : Kind) (file : SourceFile ρ)
  | compact (readable : Readable) (crash : Option ℕ)

structure Recording (ρ : Type) where
  dir : WindowDir ρ
  added : Kind → Multiset ρ

def noRows : Recording ρ := ⟨⟨fun _ => [], fun _ => List.nodup_nil, fun _ => none, fun _ => none⟩, fun _ => 0⟩

def windowStep (recording : Recording ρ) : WindowStep ρ → Recording ρ
  | .record kind file =>
    { dir := recording.dir.add kind file, added := Function.update recording.added kind (recording.added kind + file.rows) }
  | .compact readable crash =>
    let operations := (compactWindowDir token readable recording.dir).operations
    { recording with dir := Runs.run WindowDir.apply recording.dir (crash.elim operations operations.take) }

end Compactor

end Callisto.Recorder
