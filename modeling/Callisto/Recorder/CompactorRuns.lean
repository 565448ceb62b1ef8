import Callisto.Recorder.WindowCompactor
import Mathlib.Algebra.Order.BigOperators.Group.List
import Mathlib.Algebra.Order.Group.Multiset

/-! What runs of the compactor keep of the recorded rows. -/

namespace Callisto.Recorder

open Callisto.Library Callisto.Library.Runs

section Keeping

variable {ρ : Type} [DecidableEq ρ] (token : ρ → Option String)

/-- The rows of a kind in the directory; a row that is in the bundle and in a source counts once. -/
def WindowDir.heldRows (dir : WindowDir ρ) (kind : Kind) : Multiset ρ := dir.bundleRows kind ∪ dir.looseRows kind

def WindowDir.Bundled (dir : WindowDir ρ) (kind : Kind) (rows : Multiset ρ) : Prop :=
  dir.bundle kind = some rows ∧ dir.manifest kind = some (manifestEntry token rows)

/-- All the rows of a kind are in its bundle with its manifest entry, or there are none. -/
def WindowDir.Compacted (dir : WindowDir ρ) (kind : Kind) (rows : Multiset ρ) : Prop :=
  dir.Bundled token kind rows ∨ dir.bundle kind = none ∧ rows = 0

/-- The directory holds every row of a kind, and without sources it is compacted. -/
structure WindowDir.Keeps (dir : WindowDir ρ) (kind : Kind) (added : Multiset ρ) : Prop where
  held : dir.heldRows kind = added
  compacted : dir.sources kind = [] → dir.Compacted token kind added

omit [DecidableEq ρ] in
theorem WindowDir.Bundled.rows {dir : WindowDir ρ} {kind : Kind} {rows : Multiset ρ} (bundled : dir.Bundled token kind rows) :
    dir.bundleRows kind = rows := by
  rw [WindowDir.bundleRows, bundled.1]
  rfl

theorem looseRows_le {dir : WindowDir ρ} {kind : Kind} {added : Multiset ρ} (keeps : dir.Keeps token kind added) :
    dir.looseRows kind ≤ added := keeps.held ▸ Multiset.le_union_right

theorem union_of_le {first second : Multiset ρ} (le : second ≤ first) : first ∪ second = first :=
  le_antisymm (Multiset.union_le (le_refl _) le) Multiset.le_union_left

def Harmless (added : Kind → Multiset ρ) (dir : WindowDir ρ) : FileOperation ρ → Prop
  | .replaceBundle kind rows => rows = added kind ∧ dir.sources kind ≠ []
  | .replaceManifest entries => ∀ kind, entries kind = dir.manifest kind ∨
      dir.bundle kind = some (added kind) ∧ entries kind = some (manifestEntry token (added kind))
  | .unlink kind _ => dir.Bundled token kind (added kind)

theorem apply_keeps {added : Kind → Multiset ρ} (dir : WindowDir ρ) (operation : FileOperation ρ)
    (keeps : ∀ kind, dir.Keeps token kind (added kind)) (harmless : Harmless token added dir operation) (kind : Kind) :
    (dir.apply operation).Keeps token kind (added kind) := by
  cases operation with
  | replaceBundle target rows =>
    obtain ⟨whole, busy⟩ := harmless
    by_cases same : kind = target
    · subst same
      have rowsNow : (dir.apply (.replaceBundle kind rows)).bundleRows kind = added kind := by
        rw [WindowDir.bundleRows, WindowDir.apply]
        simp only [Function.update_self, Option.getD_some]
        exact whole
      constructor
      · have loose : dir.looseRows kind ≤ added kind := looseRows_le token (keeps kind)
        rw [WindowDir.heldRows, rowsNow]
        exact union_of_le loose
      · exact fun none_ => absurd none_ busy
    · have bundleNow : (dir.apply (.replaceBundle target rows)).bundle kind = dir.bundle kind := Function.update_of_ne same _ _
      constructor
      · rw [← (keeps kind).held, WindowDir.heldRows, WindowDir.bundleRows, bundleNow]
        rfl
      · intro none_
        unfold WindowDir.Compacted WindowDir.Bundled
        rw [bundleNow]
        exact (keeps kind).compacted none_
  | replaceManifest entries =>
    constructor
    · exact (keeps kind).held
    · intro none_
      have before := (keeps kind).compacted none_
      cases harmless kind with
      | inl same =>
        unfold WindowDir.Compacted WindowDir.Bundled
        have manifestNow : (dir.apply (.replaceManifest entries)).manifest kind = dir.manifest kind := same
        rw [manifestNow]
        exact before
      | inr new => exact Or.inl new
  | unlink target path =>
    have bundled : dir.Bundled token target (added target) := harmless
    by_cases same : kind = target
    · subst same
      have stays : (dir.apply (.unlink kind path)).Bundled token kind (added kind) := bundled
      constructor
      · have fewer : (dir.apply (.unlink kind path)).looseRows kind ≤ dir.looseRows kind := by
          rw [WindowDir.looseRows, WindowDir.looseRows, WindowDir.apply]
          simp only [Function.update_self]
          have sub := (List.filter_sublist (l := dir.sources kind) (p := fun file => file.path ≠ path)).map SourceFile.rows
          exact sub.sum_le_sum fun _ _ => Multiset.zero_le _
        rw [WindowDir.heldRows, stays.rows token]
        exact union_of_le (fewer.trans (looseRows_le token (keeps kind)))
      · exact fun _ => Or.inl stays
    · have sourcesNow : (dir.apply (.unlink target path)).sources kind = dir.sources kind := Function.update_of_ne same _ _
      constructor
      · rw [← (keeps kind).held, WindowDir.heldRows, WindowDir.looseRows, sourcesNow]
        rfl
      · intro none_
        rw [sourcesNow] at none_
        exact (keeps kind).compacted none_

/-- The sources of a kind that the manifest vouches for are in the bundle; others, once they are read, are not. -/
def MergeSafe (readable : Readable) (dir : WindowDir ρ) (kind : Kind) : Prop :=
  if verifiedBundleFromManifest token (readable.bundle kind) (dir.bundle kind) (dir.manifest kind) then
    ∀ row ∈ dir.looseRows kind, row ∈ dir.bundleRows kind
  else unreadable readable dir kind = none → ∀ row ∈ dir.looseRows kind, row ∉ dir.bundleRows kind

omit [DecidableEq ρ] in
theorem verified_bundled {readable : Bool} {dir : WindowDir ρ} {kind : Kind}
    (verified : verifiedBundleFromManifest token readable (dir.bundle kind) (dir.manifest kind) = true) :
    dir.Bundled token kind (dir.bundleRows kind) := by
  unfold WindowDir.Bundled WindowDir.bundleRows
  cases bundle : dir.bundle kind with
  | none =>
    rw [bundle] at verified
    cases verified
  | some rows =>
    cases listed : dir.manifest kind with
    | none =>
      rw [bundle, listed] at verified
      cases verified
    | some entry =>
      rw [bundle, listed] at verified
      simp only [verifiedBundleFromManifest, Bool.and_eq_true, decide_eq_true_eq] at verified
      obtain ⟨⟨-, count⟩, tokens⟩ := verified
      obtain ⟨entryRows, entryTokens⟩ := entry
      constructor
      · rfl
      · simp only at count tokens
        rw [← count, ← tokens]
        rfl

def unlinks (files : List (Kind × String)) : List (FileOperation ρ) := files.map fun file => .unlink file.1 file.2

omit [DecidableEq ρ] in
theorem run_unlinks (files : List (Kind × String)) (dir : WindowDir ρ) :
    (run WindowDir.apply dir (unlinks files)).bundle = dir.bundle ∧ (run WindowDir.apply dir (unlinks files)).manifest = dir.manifest ∧
      ∀ kind, (∀ file ∈ files, file.1 ≠ kind) → (run WindowDir.apply dir (unlinks files)).sources kind = dir.sources kind := by
  induction files generalizing dir with
  | nil => exact ⟨rfl, rfl, fun _ _ => rfl⟩
  | cons file rest ih =>
    obtain ⟨bundles, manifests, others⟩ := ih (dir.apply (.unlink file.1 file.2))
    refine ⟨bundles, manifests, ?_⟩
    intro kind different
    have here : (dir.apply (.unlink file.1 file.2)).sources kind = dir.sources kind :=
      Function.update_of_ne (Ne.symm (different file List.mem_cons_self)) _ _
    exact (others kind fun other member => different other (List.mem_cons_of_mem _ member)).trans here

omit [DecidableEq ρ] in
theorem unlinks_harmless {added : Kind → Multiset ρ} (files : List (Kind × String)) (dir : WindowDir ρ)
    (bundled : ∀ file ∈ files, dir.Bundled token file.1 (added file.1)) : Meets WindowDir.apply (Harmless token added) dir (unlinks files) := by
  induction files generalizing dir with
  | nil => trivial
  | cons file rest ih =>
    exact ⟨bundled file List.mem_cons_self, ih _ fun other member => bundled other (List.mem_cons_of_mem _ member)⟩

structure Walked (added : Kind → Multiset ρ) (dir : WindowDir ρ) (past : List Kind) (compaction : Compaction ρ) : Prop where
  harmless : Meets WindowDir.apply (Harmless token added) dir compaction.operations
  ahead : ∀ kind, kind ∉ past → (run WindowDir.apply dir compaction.operations).sources kind = dir.sources kind ∧
    (run WindowDir.apply dir compaction.operations).bundle kind = dir.bundle kind
  sameManifest : (run WindowDir.apply dir compaction.operations).manifest = dir.manifest
  old : ∀ kind, kind ∉ compaction.kindsCompacted → compaction.manifest kind = dir.manifest kind
  new : ∀ kind ∈ compaction.kindsCompacted, kind ∈ past ∧ (run WindowDir.apply dir compaction.operations).bundle kind = some (added kind) ∧
    compaction.manifest kind = some (manifestEntry token (added kind))
  deletes : ∀ file ∈ compaction.sourcesToDelete, file.1 ∈ compaction.kindsCompacted
  finished : compaction.error = none → ∀ kind ∈ past, kind ∈ compaction.kindsCompacted ∨
    (run WindowDir.apply dir compaction.operations).Compacted token kind (added kind)

variable {token} {added : Kind → Multiset ρ} {dir : WindowDir ρ} {past : List Kind} {compaction : Compaction ρ} {kind : Kind}

theorem Walked.keeps (walked : Walked token added dir past compaction) (keeps : ∀ kind, dir.Keeps token kind (added kind)) (kind : Kind) :
    (run WindowDir.apply dir compaction.operations).Keeps token kind (added kind) :=
  Runs.invariant (fun state operation kept harmless => apply_keeps token state operation kept harmless) keeps walked.harmless kind

theorem Walked.idle (walked : Walked token added dir past compaction) (keeps : ∀ kind, dir.Keeps token kind (added kind))
    (ahead : kind ∉ past) (none_ : dir.sources kind = []) : Walked token added dir (past ++ [kind]) compaction where
  harmless := walked.harmless
  ahead other outside := walked.ahead other fun member => outside (List.mem_append_left _ member)
  sameManifest := walked.sameManifest
  old := walked.old
  new other member := ⟨List.mem_append_left _ (walked.new other member).1, (walked.new other member).2⟩
  deletes := walked.deletes
  finished fine other member := by
    cases List.mem_append.1 member with
    | inl before => exact walked.finished fine other before
    | inr here =>
      rw [List.mem_singleton.1 here]
      exact Or.inr ((walked.keeps keeps kind).compacted ((walked.ahead kind ahead).1.trans none_))

omit [DecidableEq ρ] in
theorem Walked.failed (walked : Walked token added dir past compaction) (error : CompactError) :
    Walked token added dir (past ++ [kind]) { compaction with anyWork := true, error := some error } where
  harmless := walked.harmless
  ahead other outside := walked.ahead other fun member => outside (List.mem_append_left _ member)
  sameManifest := walked.sameManifest
  old := walked.old
  new other member := ⟨List.mem_append_left _ (walked.new other member).1, (walked.new other member).2⟩
  deletes := walked.deletes
  finished fine := by cases fine

omit [DecidableEq ρ] in
theorem Walked.cleaned (walked : Walked token added dir past compaction) (ahead : kind ∉ past) (bundled : dir.Bundled token kind (added kind))
    (files : List (Kind × String)) (own : ∀ file ∈ files, file.1 = kind) (removed : ℕ) :
    Walked token added dir (past ++ [kind]) { compaction with
      anyWork := true, sourceFilesRemoved := removed, operations := compaction.operations ++ unlinks files } := by
  obtain ⟨bundles, manifests, others⟩ := run_unlinks files (run WindowDir.apply dir compaction.operations)
  have bundledNow : (run WindowDir.apply dir compaction.operations).Bundled token kind (added kind) :=
    ⟨(walked.ahead kind ahead).2.trans bundled.1, (congrFun walked.sameManifest kind).trans bundled.2⟩
  constructor
  · apply walked.harmless.append
    apply unlinks_harmless
    intro file member
    rw [own file member]
    exact bundledNow
  · intro other outside
    rw [List.mem_append, List.mem_singleton, not_or] at outside
    have before := walked.ahead other outside.1
    rw [run_append, bundles, others other fun file member => by rw [own file member]; exact Ne.symm outside.2]
    exact before
  · rw [run_append, manifests]
    exact walked.sameManifest
  · exact walked.old
  · intro other member
    rw [run_append, bundles]
    exact ⟨List.mem_append_left _ (walked.new other member).1, (walked.new other member).2⟩
  · exact walked.deletes
  · intro fine other member
    unfold WindowDir.Compacted WindowDir.Bundled
    rw [run_append, bundles, manifests]
    cases List.mem_append.1 member with
    | inl before => exact walked.finished fine other before
    | inr here =>
      rw [List.mem_singleton.1 here]
      exact Or.inr (Or.inl bundledNow)

omit [DecidableEq ρ] in
theorem Walked.merged (walked : Walked token added dir past compaction) (ahead : kind ∉ past) (busy : dir.sources kind ≠ [])
    {rows : Multiset ρ} (whole : rows = added kind) (files : List (Kind × String)) (own : ∀ file ∈ files, file.1 = kind) (count : ℕ) :
    Walked token added dir (past ++ [kind]) { compaction with
      anyWork := true
      manifest := Function.update compaction.manifest kind (some (manifestEntry token rows))
      kindsCompacted := compaction.kindsCompacted ++ [kind]
      rows := count
      sourcesToDelete := compaction.sourcesToDelete ++ files
      operations := compaction.operations ++ [.replaceBundle kind rows] } := by
  have bundleOther : ∀ other, other ≠ kind →
      (run WindowDir.apply dir (compaction.operations ++ [.replaceBundle kind rows])).bundle other =
        (run WindowDir.apply dir compaction.operations).bundle other := by
    intro other different
    rw [run_append]
    exact Function.update_of_ne different _ _
  have bundleOwn : (run WindowDir.apply dir (compaction.operations ++ [.replaceBundle kind rows])).bundle kind = some (added kind) := by
    rw [run_append, ← whole]
    exact Function.update_self _ _ _
  constructor
  · exact walked.harmless.append ⟨⟨whole, (walked.ahead kind ahead).1 ▸ busy⟩, trivial⟩
  · intro other outside
    rw [List.mem_append, List.mem_singleton, not_or] at outside
    have before := walked.ahead other outside.1
    constructor
    · rw [run_append]
      exact before.1
    · rw [bundleOther other outside.2]
      exact before.2
  · rw [run_append]
    exact walked.sameManifest
  · intro other outside
    rw [List.mem_append, List.mem_singleton, not_or] at outside
    show Function.update compaction.manifest kind _ other = _
    rw [Function.update_of_ne outside.2]
    exact walked.old other outside.1
  · intro other member
    by_cases same : other = kind
    · subst same
      refine ⟨List.mem_append_right _ (List.mem_singleton.2 rfl), bundleOwn, ?_⟩
      rw [← whole]
      exact Function.update_self _ _ _
    · have before : other ∈ compaction.kindsCompacted := by
        cases List.mem_append.1 member with
        | inl old => exact old
        | inr single => exact absurd (List.mem_singleton.1 single) same
      obtain ⟨inPast, bundle, entry⟩ := walked.new other before
      refine ⟨List.mem_append_left _ inPast, (bundleOther other same).trans bundle, ?_⟩
      exact (Function.update_of_ne same _ _).trans entry
  · intro file member
    cases List.mem_append.1 member with
    | inl old => exact List.mem_append_left _ (walked.deletes file old)
    | inr new => exact List.mem_append_right _ (List.mem_singleton.2 (own file new))
  · intro fine other member
    by_cases same : other = kind
    · exact Or.inl (List.mem_append_right _ (List.mem_singleton.2 same))
    · have before : other ∈ past := by
        cases List.mem_append.1 member with
        | inl old => exact old
        | inr single => exact absurd (List.mem_singleton.1 single) same
      cases walked.finished fine other before with
      | inl compacted => exact Or.inl (List.mem_append_left _ compacted)
      | inr compacted =>
        right
        unfold WindowDir.Compacted WindowDir.Bundled at compacted ⊢
        rw [bundleOther other same, run_append]
        exact compacted

theorem compactKind_walked {readable : Readable} (walked : Walked token added dir past compaction)
    (keeps : ∀ kind, dir.Keeps token kind (added kind)) (nodup : (added kind).Nodup) (ahead : kind ∉ past)
    (safe : MergeSafe token readable dir kind) : Walked token added dir (past ++ [kind]) (compactKind token readable dir compaction kind) := by
  have entry : compaction.manifest kind = dir.manifest kind := walked.old kind fun member => ahead (walked.new kind member).1
  have loose := looseRows_le token (keeps kind)
  unfold compactKind
  by_cases none_ : dir.sources kind = []
  · rw [if_pos none_]
    exact walked.idle keeps ahead none_
  rw [if_neg none_, entry]
  unfold MergeSafe at safe
  split at safe
  case isTrue verified =>
    rw [if_pos verified]
    have inside : dir.looseRows kind ≤ dir.bundleRows kind :=
      (Multiset.le_iff_subset (Multiset.nodup_of_le loose nodup)).2 fun row member => safe row member
    have whole : dir.bundleRows kind = added kind := by rw [← (keeps kind).held, WindowDir.heldRows, union_of_le inside]
    have bundled : dir.Bundled token kind (added kind) := whole ▸ verified_bundled token verified
    have cleaned := walked.cleaned ahead bundled ((dir.sources kind).map fun file => (kind, file.path))
      (by
        intro file member
        obtain ⟨source, -, rfl⟩ := List.mem_map.1 member
        rfl)
      (compaction.sourceFilesRemoved + (dir.sources kind).length)
    rw [unlinks, List.map_map] at cleaned
    exact cleaned
  case isFalse unverified =>
    rw [if_neg unverified]
    cases torn : unreadable readable dir kind with
    | some error => exact walked.failed error
    | none =>
      have apart : Disjoint (dir.bundleRows kind) (dir.looseRows kind) :=
        Multiset.disjoint_left.2 fun inBundle inLoose => safe torn _ inLoose inBundle
      have whole : dir.bundleRows kind + dir.looseRows kind = added kind := by
        rw [← (keeps kind).held, WindowDir.heldRows]
        exact Multiset.add_eq_union_iff_disjoint.2 apart
      exact walked.merged ahead none_ whole _ (by
        intro file member
        obtain ⟨source, -, rfl⟩ := List.mem_map.1 member
        rfl) _

theorem compactWindowDir_walked {readable : Readable} (keeps : ∀ kind, dir.Keeps token kind (added kind))
    (nodup : ∀ kind, (added kind).Nodup) (safe : ∀ kind, MergeSafe token readable dir kind) :
    Walked token added dir kinds (kinds.foldl (compactKind token readable dir) { manifest := dir.manifest }) := by
  have start : Walked token added dir [] { manifest := dir.manifest } := by
    constructor
    · trivial
    · exact fun _ _ => ⟨rfl, rfl⟩
    · rfl
    · exact fun _ _ => rfl
    · exact fun _ member => absurd member List.not_mem_nil
    · exact fun _ member => absurd member List.not_mem_nil
    · exact fun _ _ member => absurd member List.not_mem_nil
  have first := compactKind_walked start keeps (nodup .snapshots) (by decide) (safe .snapshots)
  exact compactKind_walked first keeps (nodup .deltas) (by decide) (safe .deltas)

/-- A run on safe sources makes only harmless file operations, and without an error it leaves every kind compacted. -/
theorem compactWindowDir_spec {readable : Readable} (keeps : ∀ kind, dir.Keeps token kind (added kind))
    (nodup : ∀ kind, (added kind).Nodup) (safe : ∀ kind, MergeSafe token readable dir kind) :
    Meets WindowDir.apply (Harmless token added) dir (compactWindowDir token readable dir).operations ∧
      ((compactWindowDir token readable dir).error = none → ∀ kind,
        (run WindowDir.apply dir (compactWindowDir token readable dir).operations).Compacted token kind (added kind)) := by
  have walked := compactWindowDir_walked keeps nodup safe
  have allKinds : ∀ kind, kind ∈ kinds := by
    intro kind
    cases kind
    · decide
    · decide
  unfold compactWindowDir
  generalize kinds.foldl (compactKind token readable dir) { manifest := dir.manifest } = compaction at walked
  by_cases idle : compaction.kindsCompacted = []
  · simp only [if_pos idle]
    constructor
    · exact walked.harmless
    · intro fine kind
      cases walked.finished fine kind (allKinds kind) with
      | inl compacted =>
        rw [idle] at compacted
        cases compacted
      | inr compacted => exact compacted
  simp only [if_neg idle]
  -- the bundles are in place: the manifest may be written and the sources removed
  have listed : ∀ kind ∈ compaction.kindsCompacted,
      ((run WindowDir.apply dir compaction.operations).apply (.replaceManifest compaction.manifest)).Bundled token kind (added kind) :=
    fun kind member => (walked.new kind member).2
  have entries : Harmless token added (run WindowDir.apply dir compaction.operations) (.replaceManifest compaction.manifest) := by
    intro kind
    by_cases member : kind ∈ compaction.kindsCompacted
    · exact Or.inr (walked.new kind member).2
    · exact Or.inl ((walked.old kind member).trans (congrFun walked.sameManifest kind).symm)
  have removable : ∀ file ∈ (if compaction.error = none then compaction.sourcesToDelete else []),
      file.1 ∈ compaction.kindsCompacted := by
    intro file member
    by_cases fine : compaction.error = none
    · rw [if_pos fine] at member
      exact walked.deletes file member
    · rw [if_neg fine] at member
      cases member
  generalize (if compaction.error = none then compaction.sourcesToDelete else []) = removed at removable
  obtain ⟨bundles, manifests, -⟩ := run_unlinks removed
    ((run WindowDir.apply dir compaction.operations).apply (.replaceManifest compaction.manifest))
  constructor
  · apply walked.harmless.append
    exact ⟨entries, unlinks_harmless token removed _ fun file member => listed file.1 (removable file member)⟩
  · intro fine kind
    unfold WindowDir.Compacted WindowDir.Bundled
    unfold unlinks at bundles manifests
    rw [run_append, run_cons, bundles, manifests]
    by_cases member : kind ∈ compaction.kindsCompacted
    · exact Or.inl (listed kind member)
    · cases walked.finished fine kind (allKinds kind) with
      | inl compacted => exact absurd compacted member
      | inr compacted =>
        unfold WindowDir.Compacted WindowDir.Bundled at compacted
        rw [congrFun walked.sameManifest kind] at compacted
        rw [← walked.old kind member] at compacted
        exact compacted

def RowsKept (recording : Recording ρ) : Prop := ∀ kind, recording.dir.heldRows kind = recording.added kind

def NewFile (recording : Recording ρ) : WindowStep ρ → Prop
  | .record kind file => file.path ∉ (recording.dir.sources kind).map SourceFile.path ∧ file.rows.Nodup ∧
      ∀ row ∈ file.rows, row ∉ recording.added kind
  | .compact _ _ => True

variable (token) in
def SafeCompaction (recording : Recording ρ) : WindowStep ρ → Prop
  | .record _ _ => True
  | .compact readable _ => ∀ kind, MergeSafe token readable recording.dir kind

instance (recording : Recording ρ) : ∀ step, Decidable (NewFile recording step)
  | .record kind file => inferInstanceAs (Decidable (file.path ∉ (recording.dir.sources kind).map SourceFile.path ∧ file.rows.Nodup ∧
      ∀ row ∈ file.rows, row ∉ recording.added kind))
  | .compact _ _ => isTrue trivial

instance (readable : Readable) (dir : WindowDir ρ) (kind : Kind) : Decidable (MergeSafe token readable dir kind) := by
  unfold MergeSafe
  infer_instance

instance (recording : Recording ρ) : ∀ step, Decidable (SafeCompaction token recording step)
  | .record _ _ => isTrue trivial
  | .compact readable _ =>
    decidable_of_iff (MergeSafe token readable recording.dir .snapshots ∧ MergeSafe token readable recording.dir .deltas)
      ⟨fun both kind => match kind with
        | .snapshots => both.1
        | .deltas => both.2, fun all => ⟨all .snapshots, all .deltas⟩⟩

variable (token) in
structure Sound (recording : Recording ρ) : Prop where
  once : ∀ kind, (recording.added kind).Nodup
  keeps : ∀ kind, recording.dir.Keeps token kind (recording.added kind)

theorem union_add_of_new {bundle loose rows : Multiset ρ} (new : ∀ row ∈ rows, row ∉ bundle ∪ loose) :
    bundle ∪ (loose + rows) = (bundle ∪ loose) + rows := by
  ext row
  rw [Multiset.count_union, Multiset.count_add, Multiset.count_add, Multiset.count_union]
  by_cases member : row ∈ rows
  · have absent := Multiset.count_eq_zero.2 (new row member)
    rw [Multiset.count_union] at absent
    omega
  · have absent := Multiset.count_eq_zero.2 member
    omega

omit [DecidableEq ρ] in
theorem add_new {file : SourceFile ρ} (path : file.path ∉ (dir.sources kind).map SourceFile.path) :
    (dir.add kind file).sources = Function.update dir.sources kind (dir.sources kind ++ [file]) ∧
      (dir.add kind file).bundle = dir.bundle ∧ (dir.add kind file).manifest = dir.manifest := by
  unfold WindowDir.add
  simp only [dif_pos path, and_self]

theorem record_sound {recording : Recording ρ} {kind : Kind} {file : SourceFile ρ} (sound : Sound token recording)
    (new : NewFile recording (.record kind file)) : Sound token (windowStep token recording (.record kind file)) := by
  obtain ⟨path, nodup, fresh⟩ := new
  obtain ⟨sourcesAll, bundleNow, manifestNow⟩ := add_new path
  constructor
  · intro other
    show (Function.update recording.added kind (recording.added kind + file.rows) other).Nodup
    by_cases same : other = kind
    · subst same
      rw [Function.update_self, Multiset.nodup_add]
      exact ⟨sound.once other, nodup, Multiset.disjoint_left.2 fun old now => fresh _ now old⟩
    · rw [Function.update_of_ne same]
      exact sound.once other
  · intro other
    have keeps := sound.keeps other
    show (recording.dir.add kind file).Keeps token other (Function.update recording.added kind (recording.added kind + file.rows) other)
    by_cases same : other = kind
    · subst same
      have sourcesNow : (recording.dir.add other file).sources other = recording.dir.sources other ++ [file] := by
        rw [sourcesAll]
        exact Function.update_self _ _ _
      rw [Function.update_self]
      constructor
      · have looseNow : (recording.dir.add other file).looseRows other = recording.dir.looseRows other + file.rows := by
          rw [WindowDir.looseRows, sourcesNow, List.map_append, List.sum_append]
          simp [WindowDir.looseRows]
        rw [WindowDir.heldRows, looseNow, WindowDir.bundleRows, bundleNow, ← keeps.held]
        have absent : ∀ row ∈ file.rows, row ∉ recording.dir.heldRows other := by
          rw [keeps.held]
          exact fresh
        exact union_add_of_new absent
      · intro none_
        rw [sourcesNow] at none_
        exact absurd none_ (List.append_ne_nil_of_right_ne_nil _ (List.cons_ne_nil _ _))
    · have sourcesNow : (recording.dir.add kind file).sources other = recording.dir.sources other := by
        rw [sourcesAll]
        exact Function.update_of_ne same _ _
      rw [Function.update_of_ne same]
      constructor
      · rw [WindowDir.heldRows, WindowDir.looseRows, WindowDir.bundleRows, sourcesNow, bundleNow]
        exact keeps.held
      · intro none_
        rw [sourcesNow] at none_
        unfold WindowDir.Compacted WindowDir.Bundled
        rw [bundleNow, manifestNow]
        exact keeps.compacted none_

theorem compact_sound {recording : Recording ρ} {readable : Readable} {crash : Option ℕ} (sound : Sound token recording)
    (safe : SafeCompaction token recording (.compact readable crash)) : Sound token (windowStep token recording (.compact readable crash)) := by
  obtain ⟨harmless, -⟩ := compactWindowDir_spec sound.keeps sound.once safe
  constructor
  · exact sound.once
  · have kept : ∀ operations, Meets WindowDir.apply (Harmless token recording.added) recording.dir operations →
        ∀ kind, (run WindowDir.apply recording.dir operations).Keeps token kind (recording.added kind) := by
      intro operations meets
      exact Runs.invariant (fun state operation held harmless => apply_keeps token state operation held harmless) sound.keeps meets
    cases crash with
    | none => exact kept _ harmless
    | some count =>
      have split := (List.take_append_drop count (compactWindowDir token readable recording.dir).operations).symm
      rw [split] at harmless
      exact kept _ harmless.of_append.1

theorem windowStep_sound {recording : Recording ρ} (step : WindowStep ρ) (sound : Sound token recording)
    (ok : NewFile recording step ∧ SafeCompaction token recording step) : Sound token (windowStep token recording step) := by
  cases step with
  | record kind file => exact record_sound sound ok.1
  | compact readable crash => exact compact_sound sound ok.2

theorem noRows_sound : Sound token (noRows : Recording ρ) where
  once _ := Multiset.nodup_zero
  keeps _ := ⟨rfl, fun _ => Or.inr ⟨rfl, rfl⟩⟩

/-- When every run of the compactor starts on safe sources, no row is lost or doubled, whatever crashes and torn files come,
and a run that ends without an error leaves all rows in the bundles, with their manifest entries. -/
theorem window_rows_kept (steps : List (WindowStep ρ)) (new : Meets (windowStep token) NewFile noRows steps)
    (safe : Meets (windowStep token) (SafeCompaction token) noRows steps) :
    Always (windowStep token) RowsKept noRows steps ∧
      ∀ before readable after, steps = before ++ WindowStep.compact readable none :: after →
        (compactWindowDir token readable (run (windowStep token) noRows before).dir).error = none →
        ∀ kind, (run (windowStep token) noRows (before ++ [WindowStep.compact readable none])).dir.Compacted token kind
          ((run (windowStep token) noRows before).added kind) := by
  have both := new.and safe
  constructor
  · have sound : Always (windowStep token) (Sound token) noRows steps :=
      Runs.always_of_meets (fun _ step held ok => windowStep_sound step held ok) noRows_sound both
    exact fun first isPrefix kind => ((sound first isPrefix).keeps kind).held
  · intro before readable after split fine kind
    rw [split] at both
    have sound : Sound token (run (windowStep token) noRows before) :=
      Runs.invariant (fun _ step held ok => windowStep_sound step held ok) noRows_sound both.of_append.1
    have here : SafeCompaction token _ (WindowStep.compact readable none) := both.of_append.2.1.2
    rw [run_append]
    exact (compactWindowDir_spec sound.keeps sound.once here).2 fine kind

end Keeping

section Runs

def allReadable : Readable := ⟨fun _ _ => true, fun _ => true⟩

def partFile (number : ℕ) : SourceFile ℕ := ⟨toString number, true, {number}⟩

/-- A compaction that crashes after the manifest, and the cleanup of the next. -/
def crashedCleanup : List (WindowStep ℕ) :=
  [.record .snapshots (partFile 1), .record .snapshots (partFile 2), .record .deltas (partFile 3), .compact allReadable (some 4),
    .compact allReadable none]

theorem window_rows_kept_cleanup :
    Always (windowStep fun _ => none) RowsKept noRows crashedCleanup ∧
      ∀ before readable after, crashedCleanup = before ++ WindowStep.compact readable none :: after →
        (compactWindowDir (fun _ => none) readable (run (windowStep fun _ => none) noRows before).dir).error = none →
        ∀ kind, (run (windowStep fun _ => none) noRows (before ++ [WindowStep.compact readable none])).dir.Compacted (fun _ => none) kind
          ((run (windowStep fun _ => none) noRows before).added kind) :=
  window_rows_kept crashedCleanup (by decide +kernel) (by decide +kernel)

def latePart : List (WindowStep ℕ) :=
  [.record .snapshots (partFile 1), .compact allReadable none, .record .snapshots (partFile 2), .compact allReadable none]

/-- A compaction that crashes between the bundle and the manifest, and another one. -/
def crashedCompaction : List (WindowStep ℕ) :=
  [.record .snapshots (partFile 1), .compact allReadable (some 1), .compact allReadable none]

/-- The late part is removed with its row, and the crashed compaction doubles its row. -/
theorem compaction_loses_and_doubles :
    (Meets (windowStep fun _ => none) NewFile noRows latePart ∧ ¬RowsKept (run (windowStep fun _ => none) noRows latePart)) ∧
      Meets (windowStep fun _ => none) NewFile noRows crashedCompaction ∧
        ¬RowsKept (run (windowStep fun _ => none) noRows crashedCompaction) := by
  have late : (run (windowStep fun _ => none) noRows latePart).dir.heldRows .snapshots ≠
      (run (windowStep fun _ => none) noRows latePart).added .snapshots := by decide +kernel
  have crashed : (run (windowStep fun _ => none) noRows crashedCompaction).dir.heldRows .snapshots ≠
      (run (windowStep fun _ => none) noRows crashedCompaction).added .snapshots := by decide +kernel
  constructor
  · exact ⟨by decide +kernel, fun kept => late (kept .snapshots)⟩
  · exact ⟨by decide +kernel, fun kept => crashed (kept .snapshots)⟩

end Runs

end Callisto.Recorder
