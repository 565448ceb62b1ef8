import Callisto.Bus.ExternalReplay

/-! When the replay of the external layout yields the rows of its kind, each once and in the order of time, and compaction changes nothing. -/

namespace Callisto.Bus.External

open Callisto.Library
open Callisto.Recorder (Kind)
open List

variable {γ : Type} {ops : NameOps} {kind : Kind} {window : ReplayWindow} {entities : Option (List String)} {slug : String}

/-! ## Order -/

theorem pairwise_by_path {β : Type} {path : β → List String} {related : β → β → Prop} {items : List β}
    (sorted : items.Pairwise fun one other => path one ≤ path other) (distinct : (items.map path).Nodup) :
    items.Pairwise related ↔ ∀ one ∈ items, ∀ other ∈ items, path one < path other → related one other := by
  constructor
  · intro ordered one here other there less
    have both : items.Pairwise fun one other => related one other ∧ path one ≤ path other := ordered.and sorted
    match pairwise_either both here there with
    | .inl same => exact absurd (same ▸ less) (lt_irrefl _)
    | .inr (.inl forward) => exact forward.1
    | .inr (.inr backward) => exact absurd less (not_lt_of_ge backward.2)
  · intro all
    have apart : items.Pairwise fun one other => path one ≠ path other := List.pairwise_map.mp distinct
    have strict : items.Pairwise fun one other => path one < path other :=
      (sorted.and apart).imp fun pair => lt_of_le_of_ne pair.1 pair.2
    exact strict.imp_of_mem fun here there less => all _ here _ there less

instance : Std.Total fun event later : ExternalEvent γ => rowKey event ≤ rowKey later := ⟨fun event later => le_total (rowKey event) (rowKey later)⟩

instance : IsTrans (ExternalEvent γ) fun event later => rowKey event ≤ rowKey later := ⟨fun _ _ _ => le_trans⟩

instance : Std.Total fun file later : OpenedFile γ => file.path ≤ later.path := ⟨fun file later => le_total file.path later.path⟩

instance : IsTrans (OpenedFile γ) fun file later => file.path ≤ later.path := ⟨fun _ _ _ => le_trans⟩

theorem readRows_sorted (window : ReplayWindow) (entities : Option (List String)) (file : OpenedFile γ) :
    (readRows window entities file).Pairwise fun event later => event.observedAtUs ≤ later.observedAtUs := by
  refine (List.pairwise_insertionSort (fun event later => rowKey event ≤ rowKey later) _).imp fun {event later} below => ?_
  cases Prod.Lex.toLex_le_toLex.mp below with
  | inl less => exact less.le
  | inr equal => exact equal.1.le

theorem mem_readRows {file : OpenedFile γ} {event : ExternalEvent γ} : event ∈ readRows window entities file ↔
    ∃ row ∈ file.rows, keepsRow window entities file.token row = true ∧ toEvent file.provider row = event := by
  rw [(readRows_perm window entities file).mem_iff, List.mem_map]
  simp only [List.mem_filter, and_assoc]

/-! ## Paths -/

theorem openTokenFile_path {root : List String} {dir : WindowDir γ} {source : TokenFile γ} {file : OpenedFile γ}
    (opened : openTokenFile ops kind entities root dir source = some file) : file.path = dir.path ++ [fileName ops kind source.tokenId] := by
  unfold openTokenFile at opened
  split at opened
  · split at opened
    · rw [← Option.some.inj opened]
    · exact nomatch opened
  · exact nomatch opened

theorem openFiles_path {root : List String} {dir : WindowDir γ} {file : OpenedFile γ} (opened : file ∈ openFiles ops kind entities root dir) :
    ∃ name, file.path = dir.path ++ [name] := by
  unfold openFiles at opened
  split at opened
  · split at opened
    · rw [List.mem_singleton.mp opened]
      exact ⟨_, rfl⟩
    · exact nomatch opened
  · obtain ⟨source, -, chosen⟩ := List.mem_filterMap.mp opened
    exact ⟨_, openTokenFile_path chosen⟩

theorem openFiles_paths {tree : Tree ops kind γ} {root : List String} {dir : WindowDir γ} (member : dir ∈ tree.dirs) :
    ((openFiles ops kind entities root dir).map OpenedFile.path).Nodup := by
  unfold openFiles
  split
  · split
    · exact List.nodup_singleton _
    · exact List.nodup_nil
  · next files held =>
    have once := tree.once dir member files held
    have names : ((files.insertionSort fun file other => fileName ops kind file.tokenId ≤ fileName ops kind other.tokenId).map
        fun file => fileName ops kind file.tokenId).Nodup :=
      ((List.perm_insertionSort _ files).map _).nodup_iff.mpr once
    rw [List.Nodup, List.pairwise_map, List.pairwise_filterMap]
    refine (List.pairwise_map.mp names).imp fun {file other} different opened chosen later otherChosen => ?_
    have first := openTokenFile_path chosen
    have second := openTokenFile_path otherChosen
    rw [first, second]
    intro same
    exact different (List.singleton_inj.mp (List.append_cancel_left same))

theorem discover_paths (tree : Tree ops kind γ) (window : ReplayWindow) (entities : Option (List String)) :
    ((discover ops window entities tree).map OpenedFile.path).Nodup := by
  have found : (((findWindowDirs ops tree).filter fun dir => dir.overlaps window).map WindowDir.path).Nodup :=
    (((List.perm_insertionSort _ _).map WindowDir.path).nodup_iff.mpr
      (tree.apart.sublist (List.filter_sublist.map WindowDir.path))).sublist (List.filter_sublist.map WindowDir.path)
  unfold discover
  rw [List.map_flatMap, List.nodup_flatMap]
  constructor
  · intro dir member
    have listed := (List.perm_insertionSort _ _).subset (List.mem_filter.mp member).1
    exact openFiles_paths (List.mem_filter.mp listed).1
  · refine (List.pairwise_map.mp found).imp fun {dir other} different => ?_
    intro path here there
    obtain ⟨file, opened, rfl⟩ := List.mem_map.mp here
    obtain ⟨later, laterOpened, same⟩ := List.mem_map.mp there
    obtain ⟨name, path⟩ := openFiles_path opened
    obtain ⟨laterName, laterPath⟩ := openFiles_path laterOpened
    have equal := laterPath.symm.trans (same.trans path)
    exact different (List.append_inj' equal rfl).1.symm

theorem discover_path_ne_nil {tree : Tree ops kind γ} {file : OpenedFile γ} (opened : file ∈ discover ops window entities tree) : file.path ≠ [] := by
  obtain ⟨dir, -, here⟩ := List.mem_flatMap.mp opened
  obtain ⟨name, path⟩ := openFiles_path here
  rw [path]
  exact List.append_ne_nil_of_right_ne_nil _ (List.cons_ne_nil _ _)

theorem streams_names {opened : List (OpenedFile γ)} (paths : (opened.map OpenedFile.path).Nodup) (some_ : ∀ file ∈ opened, file.path ≠ []) :
    ((streams window entities opened).map Prod.fst).Nodup := by
  unfold streams
  rw [List.map_append, List.map_map, List.map_map, List.nodup_append]
  refine ⟨?_, ?_, ?_⟩
  · refine (List.nodup_dedup _).map fun token other same => ?_
    exact (Prod.mk.inj same).1
  · have bundles : ((opened.filter fun file => file.token = none).map OpenedFile.path).Nodup :=
      paths.sublist (List.filter_sublist.map OpenedFile.path)
    have keyed := bundles.map fun path other (same : (toLex ("bundle:", path) : StreamKey) = toLex ("bundle:", other)) => (Prod.mk.inj same).2
    rwa [List.map_map] at keyed
  · intro name here other there same
    obtain ⟨token, -, rfl⟩ := List.mem_map.mp here
    obtain ⟨file, member, rfl⟩ := List.mem_map.mp there
    exact some_ file (List.mem_filter.mp member).1 (Prod.mk.inj same).2.symm

/-! ## The replay -/

theorem replayer_perm (tree : Tree ops kind γ) (window : ReplayWindow) (slug : String) : externalParquetReplayer ops window slug tree ~
    ((placed tree).filter (yields tree window (window.entities slug))).map (placedEvent tree.root) :=
  ((mergeStreams_perm _ (streams_names (discover_paths tree window _) fun _ => discover_path_ne_nil)).trans (content_streams window _ _)).trans
    (discover_perm tree window _)

/-- The rows of one token that are read are in the order of time along the paths of the files that are opened. -/
def FilesInOrder (tree : Tree ops kind γ) (window : ReplayWindow) (entities : Option (List String)) : Prop :=
  ∀ token, ∀ file ∈ discover ops window entities tree, file.token = some token → ∀ later ∈ discover ops window entities tree,
    later.token = some token → file.path < later.path → ∀ row ∈ file.rows, keepsRow window entities (some token) row = true →
      ∀ other ∈ later.rows, keepsRow window entities (some token) other = true → row.observedAtUs ≤ other.observedAtUs

theorem tokenStream_sorted_iff {opened : List (OpenedFile γ)} (paths : (opened.map OpenedFile.path).Nodup) (token : String) :
    ((tokenFiles opened token).flatMap (readRows window entities)).Pairwise (fun event later => event.observedAtUs ≤ later.observedAtUs) ↔
      ∀ file ∈ opened, file.token = some token → ∀ later ∈ opened, later.token = some token → file.path < later.path →
        ∀ row ∈ file.rows, keepsRow window entities (some token) row = true →
          ∀ other ∈ later.rows, keepsRow window entities (some token) other = true → row.observedAtUs ≤ other.observedAtUs := by
  have member : ∀ file, file ∈ tokenFiles opened token ↔ file ∈ opened ∧ file.token = some token := by
    intro file
    unfold tokenFiles
    rw [List.mem_insertionSort, List.mem_filter, decide_eq_true_eq]
  have distinct : ((tokenFiles opened token).map OpenedFile.path).Nodup :=
    ((List.perm_insertionSort _ _).map OpenedFile.path).nodup_iff.mpr (paths.sublist (List.filter_sublist.map OpenedFile.path))
  have sorted : (tokenFiles opened token).Pairwise fun file later => file.path ≤ later.path := List.pairwise_insertionSort _ _
  rw [List.pairwise_flatMap, and_iff_right fun file _ => readRows_sorted window entities file, pairwise_by_path sorted distinct]
  constructor
  · intro ordered file here named later there laterNamed less row rowMember kept other otherMember otherKept
    exact ordered file ((member file).mpr ⟨here, named⟩) later ((member later).mpr ⟨there, laterNamed⟩) less
      _ (mem_readRows.mpr ⟨row, rowMember, named ▸ kept, rfl⟩) _ (mem_readRows.mpr ⟨other, otherMember, laterNamed ▸ otherKept, rfl⟩)
  · intro ordered file here later there less event eventMember other otherMember
    obtain ⟨row, rowMember, kept, rfl⟩ := mem_readRows.mp eventMember
    obtain ⟨laterRow, laterMember, laterKept, rfl⟩ := mem_readRows.mp otherMember
    have first := (member file).mp here
    have second := (member later).mp there
    exact ordered file first.1 first.2 later second.1 second.2 less row rowMember (first.2 ▸ kept) laterRow laterMember (second.2 ▸ laterKept)

theorem replayer_sorted_iff (tree : Tree ops kind γ) (window : ReplayWindow) (slug : String) :
    (externalParquetReplayer ops window slug tree).Pairwise (fun event later => event.observedAtUs ≤ later.observedAtUs) ↔
      FilesInOrder tree window (window.entities slug) := by
  have paths := discover_paths tree window (window.entities slug)
  unfold externalParquetReplayer
  simp only
  rw [mergeStreams_sorted_iff (fun _ _ below => below) (streams_names paths fun _ => discover_path_ne_nil)]
  constructor
  · intro sorted token file here named
    have stream := sorted _ (List.mem_append_left _ (List.mem_map.mpr ⟨token, mem_tokens.mpr ⟨file, here, named⟩, rfl⟩))
    exact (tokenStream_sorted_iff paths token).mp stream file here named
  · intro ordered stream member
    cases List.mem_append.mp member with
    | inl ofToken =>
      obtain ⟨token, -, rfl⟩ := List.mem_map.mp ofToken
      exact (tokenStream_sorted_iff paths token).mpr (ordered token)
    | inr ofBundle =>
      obtain ⟨file, -, rfl⟩ := List.mem_map.mp ofBundle
      exact readRows_sorted window _ file

/-! ## Compaction -/

/-- `_LEGACY_FILE_RE` matches the name of a token's file. -/
def compactable (ops : NameOps) (tokenId : String) : Bool :=
  let chars := (safeSegment ops tokenId).toList
  !chars.isEmpty && chars.all fun char =>
    ('A' ≤ char && char ≤ 'Z') || ('a' ≤ char && char ≤ 'z') || ('0' ≤ char && char ≤ '9') || char = '_' || char = '-'

/-- A window directory as the compactor sees it: files of one kind, no bundle and no manifest. -/
def looseDir (ops : NameOps) (kind : Kind) (files : List (TokenFile γ)) (once : (files.map fun file => fileName ops kind file.tokenId).Nodup) :
    Recorder.WindowDir (BookRow γ) where
  sources other :=
    if other = kind then (files.filter fun file => compactable ops file.tokenId).map fun file => ⟨fileName ops kind file.tokenId, false, file.rows⟩
    else []
  distinct other := by
    split
    · rw [List.map_map]
      exact once.sublist (List.filter_sublist.map _)
    · exact List.nodup_nil
  bundle _ := none
  manifest _ := none

def compactedRows (ops : NameOps) (files : List (TokenFile γ)) : List (BookRow γ) :=
  (files.filter fun file => compactable ops file.tokenId).flatMap TokenFile.rows

theorem sum_rows (files : List (TokenFile γ)) :
    (files.map fun file => (file.rows : Multiset (BookRow γ))).sum = (files.flatMap TokenFile.rows : List (BookRow γ)) := by
  induction files with
  | nil => rfl
  | cons file files ih => rw [List.map_cons, List.sum_cons, ih, List.flatMap_cons, Multiset.coe_add]

theorem unlink_bundle (kind : Kind) (unlinked : List (Kind × String)) (dir : Recorder.WindowDir (BookRow γ)) :
    ((unlinked.map fun file => Recorder.FileOperation.unlink file.1 file.2).foldl Recorder.WindowDir.apply dir).bundle kind = dir.bundle kind := by
  induction unlinked generalizing dir with
  | nil => rfl
  | cons file unlinked ih => exact ih _

/-- The bundle that `compact_window_dir` leaves of a window, all of whose files it can read. -/
def bundleAfter (kind : Kind) (dir : Recorder.WindowDir (BookRow γ)) : Option (Multiset (BookRow γ)) :=
  ((Recorder.compactWindowDir (fun row => some row.tokenId)
    ⟨fun _ _ => true, fun _ => true⟩ dir).operations.foldl Recorder.WindowDir.apply dir).bundle kind

theorem compactKind_loose {dir : Recorder.WindowDir (BookRow γ)} (compaction : Recorder.Compaction (BookRow γ)) (loose : dir.sources kind ≠ [])
    (bundle : dir.bundle kind = none) :
    (Recorder.compactKind (fun row => some row.tokenId) ⟨fun _ _ => true, fun _ => true⟩ dir compaction kind).kindsCompacted =
      compaction.kindsCompacted ++ [kind] ∧
    (Recorder.compactKind (fun row => some row.tokenId) ⟨fun _ _ => true, fun _ => true⟩ dir compaction kind).operations =
      compaction.operations ++ [.replaceBundle kind (dir.looseRows kind)] := by
  have torn : (dir.sources kind).find? (fun _ => false) = none := List.find?_eq_none.mpr fun _ _ => Bool.false_ne_true
  have readable : Recorder.unreadable ⟨fun _ _ => true, fun _ => true⟩ dir kind = none := by
    simp [Recorder.unreadable, bundle, torn]
  have rows : dir.bundleRows kind + dir.looseRows kind = dir.looseRows kind := by
    rw [Recorder.WindowDir.bundleRows, bundle, Option.getD_none, zero_add]
  unfold Recorder.compactKind
  rw [if_neg loose, if_neg (by simp [Recorder.verifiedBundleFromManifest, bundle]), readable]
  simp only [rows, and_self]

theorem compactKind_idle {dir : Recorder.WindowDir (BookRow γ)} (compaction : Recorder.Compaction (BookRow γ)) {other : Kind}
    (none_ : dir.sources other = []) :
    Recorder.compactKind (fun row => some row.tokenId) ⟨fun _ _ => true, fun _ => true⟩ dir compaction other = compaction := by
  unfold Recorder.compactKind
  rw [if_pos none_]

theorem bundleAfter_eq {dir : Recorder.WindowDir (BookRow γ)} (only : ∀ other, other ≠ kind → dir.sources other = [])
    (bundle : dir.bundle kind = none) :
    bundleAfter kind dir = if dir.sources kind = [] then none else some (dir.looseRows kind) := by
  have walk : Recorder.kinds.foldl (Recorder.compactKind (fun row : BookRow γ => some row.tokenId) ⟨fun _ _ => true, fun _ => true⟩ dir)
      { manifest := dir.manifest } =
      Recorder.compactKind (fun row => some row.tokenId) ⟨fun _ _ => true, fun _ => true⟩ dir { manifest := dir.manifest } kind := by
    cases kind with
    | snapshots =>
      rw [Recorder.kinds, List.foldl_cons, List.foldl_cons, List.foldl_nil, compactKind_idle _ (only .deltas (by decide))]
    | deltas =>
      rw [Recorder.kinds, List.foldl_cons, List.foldl_cons, List.foldl_nil, compactKind_idle _ (only .snapshots (by decide))]
  unfold bundleAfter Recorder.compactWindowDir
  simp only [walk]
  by_cases empty : dir.sources kind = []
  · rw [compactKind_idle _ empty, if_pos empty]
    exact bundle
  · have compacted := compactKind_loose { manifest := dir.manifest } empty bundle
    rw [if_neg empty, if_neg (by rw [compacted.1]; exact List.cons_ne_nil _ _)]
    simp only [compacted.2, List.nil_append, List.cons_append, List.foldl_cons]
    rw [unlink_bundle]
    exact Function.update_self kind _ _

theorem looseDir_bundle (files : List (TokenFile γ)) : ∀ once, bundleAfter kind (looseDir ops kind files once) =
    if (files.filter fun file => compactable ops file.tokenId) = [] then none else some (compactedRows ops files : Multiset (BookRow γ)) := by
  intro once
  have sources : (looseDir ops kind files once).sources kind =
      (files.filter fun file => compactable ops file.tokenId).map fun file => ⟨fileName ops kind file.tokenId, false, file.rows⟩ := if_pos rfl
  have rows : (looseDir ops kind files once).looseRows kind = (compactedRows ops files : Multiset (BookRow γ)) := by
    rw [Recorder.WindowDir.looseRows, sources, List.map_map]
    exact sum_rows _
  rw [bundleAfter_eq (fun other different => if_neg different) rfl, rows, sources]
  simp only [List.map_eq_nil_iff]

/-- The directory once its files are compacted; files that the compactor does not match are no longer looked at. -/
def WindowDir.bundled (dir : WindowDir γ) (rows : List (BookRow γ)) (kept : ∀ row ∈ rows, row ∈ dir.content.rows) : WindowDir γ :=
  { dir with content := .bundle rows, inside := fun row member => dir.inside row (kept row member) }

/-- The files of one window of the tree are replaced by their compacted bundle. -/
def Compacted (tree compacted : Tree ops kind γ) : Prop :=
  compacted.root = tree.root ∧ ∃ before dir after files, ∃ rows : List (BookRow γ), ∃ kept once,
    tree.dirs = before ++ dir :: after ∧ dir.content = .tokenFiles files ∧
    bundleAfter kind (looseDir ops kind files once) = some (rows : Multiset (BookRow γ)) ∧ compacted.dirs = before ++ dir.bundled rows kept :: after

end Callisto.Bus.External
