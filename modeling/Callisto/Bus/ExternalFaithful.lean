import Callisto.Bus.ExternalContract

/-! The contract of the replay of the external layout, and the trees that meet it. -/

namespace Callisto.Bus.External

open Callisto.Library
open Callisto.Recorder (Kind)
open List

variable {γ : Type} {ops : NameOps} {kind : Kind} {window : ReplayWindow} {entities : Option (List String)}
  {slug : String} {tree : Tree ops kind γ} {dir : WindowDir γ}

/-! ## Lists -/

theorem perm_map_filter_iff {α β : Type} {items : List α} {chosen more : α → Bool} (function : α → β)
    (below : ∀ item, chosen item = true → more item = true) :
    (items.filter chosen).map function ~ (items.filter more).map function ↔ ∀ item ∈ items, more item = true → chosen item = true := by
  have narrowed : items.filter chosen = (items.filter more).filter chosen := by
    rw [List.filter_filter]
    apply List.filter_congr
    intro item _
    cases here : chosen item with
    | true => rw [below item here, Bool.true_and]
    | false => rw [Bool.false_and]
  constructor
  · intro same item member wider
    have lengths := same.length_eq
    rw [List.length_map, List.length_map, narrowed, List.length_filter_eq_length_iff] at lengths
    exact lengths item (List.mem_filter.mpr ⟨member, wider⟩)
  · intro all
    have whole : (items.filter more).filter chosen = items.filter more :=
      List.filter_eq_self.mpr fun item member => all item (List.mem_filter.mp member).1 (List.mem_filter.mp member).2
    rw [narrowed, whole]

theorem perm_flatMap_filter_iff {α β δ : Type} {items : List α} {chosen : α → Bool} {next : α → List β} {function : β → δ} :
    ((items.filter chosen).flatMap next).map function ~ (items.flatMap next).map function ↔ ∀ item ∈ items, chosen item = false → next item = [] := by
  constructor
  · intro same item member left
    have split := ((List.filter_append_perm chosen items).flatMap_right next).length_eq
    have lengths := same.length_eq
    rw [List.length_map, List.length_map] at lengths
    rw [List.flatMap_append, List.length_append] at split
    have nothing : (items.filter fun item => !chosen item).flatMap next = [] := List.length_eq_zero_iff.mp (by omega)
    exact List.flatMap_eq_nil_iff.mp nothing item (List.mem_filter.mpr ⟨member, by rw [left]; rfl⟩)
  · intro empty
    rw [flatMap_filter_of_nil empty]

/-! ## The contract -/

/-- The replay yields each row of the kind that the window asks for once and in the order of time, and replacing the files of a window by
their bundle changes nothing. -/
structure Faithful (tree : Tree ops kind γ) (window : ReplayWindow) (slug : String) : Prop where
  complete : externalParquetReplayer ops window slug tree ~
    ((placed tree).filter fun place => wanted window (window.entities slug) place.2).map (placedEvent tree.root)
  ordered : (externalParquetReplayer ops window slug tree).Pairwise fun event later => event.observedAtUs ≤ later.observedAtUs
  compaction : ∀ compacted, Compacted tree compacted → externalParquetReplayer ops window slug compacted ~
    externalParquetReplayer ops window slug tree

/-- Each row that the window asks for is in a directory that is found, has a positive time, and has the token that the name of its file shows. -/
def Legible (tree : Tree ops kind γ) (window : ReplayWindow) (entities : Option (List String)) : Prop :=
  ∀ place ∈ placed tree, wanted window entities place.2 = true →
    place.1.found tree.dirs = true ∧ 0 < place.2.observedAtUs ∧ legible ops kind place.1.content place.2 = true

def WindowDir.loose (dir : WindowDir γ) : Prop := ∃ files, dir.content = .tokenFiles files

def placePath (ops : NameOps) (kind : Kind) (place : WindowDir γ × BookRow γ) : List String :=
  place.1.path ++ [fileName ops kind place.2.tokenId]

/-- The rows of one token, in the order of the paths of their files, are in the order of time. -/
def InPathOrder (tree : Tree ops kind γ) (window : ReplayWindow) (entities : Option (List String)) : Prop :=
  ∀ place ∈ placed tree, place.1.loose → wanted window entities place.2 = true →
    ∀ later ∈ placed tree, later.1.loose → wanted window entities later.2 = true → place.2.tokenId = later.2.tokenId →
      placePath ops kind place < placePath ops kind later → place.2.observedAtUs ≤ later.2.observedAtUs

/-- Where the compactor matches the name of some file, it matches that of each file with a row that the window asks for. -/
def Compactable (tree : Tree ops kind γ) (window : ReplayWindow) (entities : Option (List String)) : Prop :=
  ∀ dir ∈ tree.dirs, ∀ files, dir.content = .tokenFiles files → (∃ file ∈ files, compactable ops file.tokenId = true) →
    ∀ file ∈ files, (∃ row ∈ file.rows, wanted window entities row = true) → compactable ops file.tokenId = true

/-! ## Completeness -/

theorem yields_iff {place : WindowDir γ × BookRow γ} : yields tree window entities place = true ↔
    wanted window entities place.2 = true ∧ place.1.found tree.dirs = true ∧ 0 < place.2.observedAtUs ∧
      legible ops kind place.1.content place.2 = true := by
  unfold yields readsRow
  rw [Bool.and_eq_true, Bool.and_eq_true, Bool.and_eq_true, decide_eq_true_eq]
  tauto

theorem complete_iff (tree : Tree ops kind γ) (window : ReplayWindow) (slug : String) : externalParquetReplayer ops window slug tree ~
    ((placed tree).filter fun place => wanted window (window.entities slug) place.2).map (placedEvent tree.root) ↔
      Legible tree window (window.entities slug) := by
  have read := replayer_perm tree window slug
  have asked : ∀ place, yields tree window (window.entities slug) place = true → wanted window (window.entities slug) place.2 = true :=
    fun _ read => (yields_iff.mp read).1
  have legible_iff : Legible tree window (window.entities slug) ↔
      ∀ place ∈ placed tree, wanted window (window.entities slug) place.2 = true → yields tree window (window.entities slug) place = true := by
    constructor
    · intro legible place member asked
      exact yields_iff.mpr ⟨asked, legible place member asked⟩
    · intro all place member asked
      exact (yields_iff.mp (all place member asked)).2
  rw [legible_iff, ← perm_map_filter_iff (placedEvent tree.root) asked]
  exact ⟨read.symm.trans, read.trans⟩

/-! ## Order -/

theorem openTokenFile_some {root : List String} {source : TokenFile γ} {file : OpenedFile γ}
    (opened : openTokenFile ops kind entities root dir source = some file) :
    ∃ token, fileToken ops kind source.tokenId = some token ∧ allows entities token = true ∧ file.token = some token ∧ file.rows = source.rows := by
  unfold openTokenFile at opened
  split at opened
  · next token named =>
    split at opened
    · next allowed =>
      rw [← Option.some.inj opened]
      exact ⟨token, named, allowed, rfl, rfl⟩
    · exact nomatch opened
  · exact nomatch opened

theorem mem_placed {place : WindowDir γ × BookRow γ} :
    place ∈ placed tree ↔ place.1 ∈ tree.dirs ∧ place.2 ∈ place.1.content.rows := by
  unfold placed
  rw [List.mem_flatMap]
  constructor
  · intro held
    have ⟨dir, member, here⟩ := held
    have ⟨row, rowMember, same⟩ := List.mem_map.mp here
    rw [← same]
    exact ⟨member, rowMember⟩
  · intro held
    exact ⟨place.1, held.1, List.mem_map.mpr ⟨place.2, held.2, rfl⟩⟩

theorem placed_of_opened {file : OpenedFile γ} (opened : file ∈ discover ops window entities tree) {token : String}
    (named : file.token = some token) {row : BookRow γ} (member : row ∈ file.rows) (kept : keepsRow window entities (some token) row = true) :
    ∃ dir, (dir, row) ∈ placed tree ∧ dir.loose ∧ wanted window entities row = true ∧ row.tokenId = token ∧
      file.path = placePath ops kind (dir, row) := by
  have ⟨dir, found, here⟩ := List.mem_flatMap.mp opened
  have inTree : dir ∈ tree.dirs := (List.mem_filter.mp ((List.perm_insertionSort _ _).subset (List.mem_filter.mp found).1)).1
  unfold openFiles at here
  split at here
  · split at here
    · rw [List.mem_singleton.mp here] at named
      exact nomatch named
    · exact nomatch here
  · next files held =>
    have ⟨source, sourceMember, chosen⟩ := List.mem_filterMap.mp here
    have ⟨read, shown, allowed, readNamed, rows⟩ := openTokenFile_some chosen
    have sameToken : read = token := Option.some.inj (readNamed.symm.trans named)
    have inSource : row ∈ source.rows := rows ▸ member
    have own := source.own row inSource
    have inFiles := (List.perm_insertionSort _ _).subset sourceMember
    simp only [keepsRow, Option.all_some, Option.isSome_some, Bool.true_or, Bool.and_true, Bool.and_eq_true, decide_eq_true_eq] at kept
    refine ⟨dir, mem_placed.mpr ⟨inTree, ?_⟩, ⟨files, held⟩, ?_, kept.1.2, ?_⟩
    · rw [held]
      exact List.mem_flatMap.mpr ⟨source, inFiles, inSource⟩
    · rw [wanted, kept.1.1, kept.1.2, ← sameToken, allowed]
      rfl
    · rw [openTokenFile_path chosen, placePath, own]

theorem opened_of_placed {place : WindowDir γ × BookRow γ} (member : place ∈ placed tree) (loose : place.1.loose)
    (read : yields tree window entities place = true) :
    ∃ file ∈ discover ops window entities tree, file.token = some place.2.tokenId ∧ place.2 ∈ file.rows ∧
      keepsRow window entities (some place.2.tokenId) place.2 = true ∧ file.path = placePath ops kind place := by
  obtain ⟨files, held⟩ := loose
  obtain ⟨inTree, inRows⟩ := mem_placed.mp member
  obtain ⟨asked, found, positive, shown⟩ := yields_iff.mp read
  rw [held, WindowContent.rows] at inRows
  obtain ⟨source, sourceMember, inSource⟩ := List.mem_flatMap.mp inRows
  have own := source.own place.2 inSource
  rw [held] at shown
  have shown := of_decide_eq_true shown
  obtain ⟨covered, allowed⟩ := Bool.and_eq_true_iff.mp asked
  have opened : openTokenFile ops kind entities tree.root place.1 source =
      some ⟨placePath ops kind place, some place.2.tokenId, provider tree.root place.1, source.rows⟩ := by
    rw [openTokenFile, ← own, shown]
    simp only [allowed, if_true, placePath]
  refine ⟨⟨placePath ops kind place, some place.2.tokenId, provider tree.root place.1, source.rows⟩, List.mem_flatMap.mpr ⟨place.1, ?_, ?_⟩,
    rfl, inSource, ?_, rfl⟩
  · exact List.mem_filter.mpr ⟨(List.perm_insertionSort _ _).symm.subset (List.mem_filter.mpr ⟨inTree, found⟩),
      overlaps_of_covers (mem_placed.mp member).2 covered⟩
  · unfold openFiles
    rw [held]
    exact List.mem_filterMap.mpr ⟨source, (List.perm_insertionSort _ _).symm.subset sourceMember, opened⟩
  · simp [keepsRow, covered, positive]

theorem ordered_iff (legible : Legible tree window (window.entities slug)) :
    (externalParquetReplayer ops window slug tree).Pairwise (fun event later => event.observedAtUs ≤ later.observedAtUs) ↔
      InPathOrder tree window (window.entities slug) := by
  rw [replayer_sorted_iff]
  constructor
  · intro ordered place member loose asked later laterMember laterLoose laterAsked same less
    have ⟨file, opened, named, inFile, kept, path⟩ := opened_of_placed member loose (yields_iff.mpr ⟨asked, legible place member asked⟩)
    have ⟨next, nextOpened, nextNamed, inNext, nextKept, nextPath⟩ :=
      opened_of_placed laterMember laterLoose (yields_iff.mpr ⟨laterAsked, legible later laterMember laterAsked⟩)
    rw [← same] at nextNamed nextKept
    exact ordered _ file opened named next nextOpened nextNamed (by rwa [path, nextPath]) _ inFile kept _ inNext nextKept
  · intro ordered token file opened named next nextOpened nextNamed less row inFile kept other inNext nextKept
    have ⟨dir, member, loose, asked, token_, path⟩ := placed_of_opened opened named inFile kept
    have ⟨later, laterMember, laterLoose, laterAsked, laterToken, nextPath⟩ := placed_of_opened nextOpened nextNamed inNext nextKept
    exact ordered _ member loose asked _ laterMember laterLoose laterAsked (token_.trans laterToken.symm) (by rwa [← path, ← nextPath])

/-! ## Compaction -/

def readOf (tree : Tree ops kind γ) (window : ReplayWindow) (entities : Option (List String)) (dir : WindowDir γ) : List (ExternalEvent γ) :=
  (dir.content.rows.filter fun row => yields tree window entities (dir, row)).map (toEvent (provider tree.root dir))

theorem found_congr {dirs others : List (WindowDir γ)} (paths : dirs.map WindowDir.path = others.map WindowDir.path) :
    dir.found dirs = dir.found others := by
  have all : ∀ listed : List (WindowDir γ), (listed.all fun other => !other.path.isPrefixOf dir.path || other.path = dir.path) =
      (listed.map WindowDir.path).all fun path => !path.isPrefixOf dir.path || path = dir.path := by
    intro listed
    rw [List.all_map]
    rfl
  unfold WindowDir.found
  rw [all dirs, all others, paths]

theorem replay_readOf (tree : Tree ops kind γ) (window : ReplayWindow) (slug : String) :
    externalParquetReplayer ops window slug tree ~ tree.dirs.flatMap (readOf tree window (window.entities slug)) := by
  have read := replayer_perm tree window slug
  rwa [map_placed] at read

/-- Compaction keeps what is read of the other directories, so all depends on the window itself. -/
theorem compacted_perm_iff (tree compacted : Tree ops kind γ) {before after : List (WindowDir γ)} {rows : List (BookRow γ)}
    {kept : ∀ row ∈ rows, row ∈ dir.content.rows} (root : compacted.root = tree.root) (dirs : tree.dirs = before ++ dir :: after)
    (bundled : compacted.dirs = before ++ dir.bundled rows kept :: after) :
    externalParquetReplayer ops window slug compacted ~ externalParquetReplayer ops window slug tree ↔
      readOf tree window (window.entities slug) (dir.bundled rows kept) ~ readOf tree window (window.entities slug) dir := by
  have paths : compacted.dirs.map WindowDir.path = tree.dirs.map WindowDir.path := by
    rw [dirs, bundled, List.map_append, List.map_append]
    rfl
  have same : readOf compacted window (window.entities slug) = readOf tree window (window.entities slug) := by
    funext other
    unfold readOf yields
    rw [root]
    simp only [found_congr paths]
  have inner : compacted.dirs.flatMap (readOf compacted window (window.entities slug)) ~
    tree.dirs.flatMap (readOf tree window (window.entities slug)) ↔
      readOf tree window (window.entities slug) (dir.bundled rows kept) ~ readOf tree window (window.entities slug) dir := by
    rw [same, dirs, bundled, List.flatMap_append, List.flatMap_append, List.perm_append_left_iff, List.flatMap_cons, List.flatMap_cons,
      List.perm_append_right_iff]
  rw [← inner]
  have first := replay_readOf compacted window slug
  have second := replay_readOf tree window slug
  exact ⟨fun replayed => first.symm.trans (replayed.trans second), fun read => first.trans (read.trans second.symm)⟩

/-- Of a window whose rows are all legible, the bundle yields the same exactly if it has all the files that matter. -/
theorem readOf_bundled_iff {files : List (TokenFile γ)} (member : dir ∈ tree.dirs)
    (held : dir.content = .tokenFiles files) (legible : Legible tree window entities) (kept) :
    readOf tree window entities (dir.bundled (compactedRows ops files) kept) ~ readOf tree window entities dir ↔
      ∀ file ∈ files, (∃ row ∈ file.rows, wanted window entities row = true) → compactable ops file.tokenId = true := by
  have here : ∀ row ∈ dir.content.rows, yields tree window entities (dir, row) = wanted window entities row := by
    intro row rowMember
    rw [Bool.eq_iff_iff, yields_iff]
    exact and_iff_left_of_imp (legible (dir, row) (mem_placed.mpr ⟨member, rowMember⟩))
  have there : ∀ row ∈ compactedRows ops files, yields tree window entities (dir.bundled (compactedRows ops files) kept, row) =
      wanted window entities row := by
    intro row rowMember
    rw [Bool.eq_iff_iff, yields_iff]
    refine and_iff_left_of_imp fun asked => ?_
    have read := legible (dir, row) (mem_placed.mpr ⟨member, kept row rowMember⟩) asked
    exact ⟨read.1, read.2.1, rfl⟩
  have bundled : readOf tree window entities (dir.bundled (compactedRows ops files) kept) =
      ((files.filter fun file => compactable ops file.tokenId).flatMap fun file => file.rows.filter (wanted window entities)).map
        (toEvent (provider tree.root dir)) := by
    have filtered : (compactedRows ops files).filter (wanted window entities) =
        (files.filter fun file => compactable ops file.tokenId).flatMap fun file => file.rows.filter (wanted window entities) :=
      List.filter_flatMap
    exact (congrArg (List.map _) (List.filter_congr there)).trans (congrArg (List.map _) filtered)
  have loose : readOf tree window entities dir =
      (files.flatMap fun file => file.rows.filter (wanted window entities)).map (toEvent (provider tree.root dir)) := by
    refine (congrArg (List.map _) (List.filter_congr here)).trans ?_
    rw [held, WindowContent.rows, List.filter_flatMap]
  rw [bundled, loose, perm_flatMap_filter_iff]
  refine forall₂_congr fun file _ => ?_
  rw [List.filter_eq_nil_iff]
  constructor
  · intro empty asked
    obtain ⟨row, rowMember, wantedRow⟩ := asked
    by_contra unmatched
    exact empty (Bool.eq_false_iff.mpr unmatched) row rowMember wantedRow
  · intro all unmatched row rowMember asked
    rw [all ⟨row, rowMember, asked⟩] at unmatched
    contradiction

theorem perm_compactedRows {files : List (TokenFile γ)} {once} {rows : List (BookRow γ)}
    (bundled : bundleAfter kind (looseDir ops kind files once) = some (rows : Multiset (BookRow γ))) :
    rows ~ compactedRows ops files ∧ ∃ file ∈ files, compactable ops file.tokenId = true := by
  rw [looseDir_bundle] at bundled
  split at bundled
  · exact nomatch bundled
  · next filled =>
    have ⟨file, member⟩ := List.exists_mem_of_ne_nil _ filled
    exact ⟨Multiset.coe_eq_coe.mp (Option.some.inj bundled).symm, file, List.mem_filter.mp member⟩

theorem readOf_bundled_perm {rows others : List (BookRow γ)} {kept otherKept} (same : rows ~ others) :
    readOf tree window entities (dir.bundled rows kept) ~ readOf tree window entities (dir.bundled others otherKept) :=
  (same.filter _).map _

theorem compacted_kept {files : List (TokenFile γ)} (held : dir.content = .tokenFiles files) :
    ∀ row ∈ compactedRows ops files, row ∈ dir.content.rows := by
  intro row member
  have ⟨file, chosen, inFile⟩ := List.mem_flatMap.mp member
  rw [held]
  exact List.mem_flatMap.mpr ⟨file, (List.mem_filter.mp chosen).1, inFile⟩

def Tree.compact (tree : Tree ops kind γ) {before after : List (WindowDir γ)} {dir : WindowDir γ} (dirs : tree.dirs = before ++ dir :: after)
    (rows : List (BookRow γ)) (kept : ∀ row ∈ rows, row ∈ dir.content.rows) : Tree ops kind γ where
  root := tree.root
  dirs := before ++ dir.bundled rows kept :: after
  apart := by
    have apart := tree.apart
    rw [dirs, List.map_append, List.map_cons] at apart
    rw [List.map_append, List.map_cons]
    exact apart
  once := by
    intro other member files held
    rw [List.mem_append, List.mem_cons] at member
    have listed : other ∈ before ∨ other ∈ after := by
      rcases member with first | same | last
      · exact .inl first
      · rw [same] at held
        exact nomatch held
      · exact .inr last
    refine tree.once other ?_ files held
    rw [dirs, List.mem_append, List.mem_cons]
    tauto

theorem compaction_iff (legible : Legible tree window (window.entities slug)) :
    (∀ compacted, Compacted tree compacted → externalParquetReplayer ops window slug compacted ~ externalParquetReplayer ops window slug tree) ↔
      Compactable tree window (window.entities slug) := by
  constructor
  · intro same dir member files held some_
    have ⟨before, after, dirs⟩ := List.append_of_mem member
    have once := tree.once dir member files held
    have kept : ∀ row ∈ compactedRows ops files, row ∈ dir.content.rows := compacted_kept held
    have filled : ¬ (files.filter fun file => compactable ops file.tokenId) = [] := by
      have ⟨file, fileMember, matched⟩ := some_
      exact List.ne_nil_of_mem (List.mem_filter.mpr ⟨fileMember, matched⟩)
    have bundled : bundleAfter kind (looseDir ops kind files once) = some (compactedRows ops files : Multiset (BookRow γ)) := by
      rw [looseDir_bundle, if_neg filled]
    have replayed := same (tree.compact dirs (compactedRows ops files) kept) ⟨rfl, before, dir, after, files, _, kept, once, dirs, held, bundled, rfl⟩
    have read := (compacted_perm_iff tree (tree.compact dirs (compactedRows ops files) kept) rfl dirs rfl).mp replayed
    exact (readOf_bundled_iff member held legible kept).mp read
  · intro all compacted replaced
    have ⟨root, before, dir, after, files, rows, kept, once, dirs, held, bundled, left⟩ := replaced
    have member : dir ∈ tree.dirs := dirs ▸ List.mem_append_right before List.mem_cons_self
    have ⟨same, some_⟩ := perm_compactedRows bundled
    have read := (readOf_bundled_iff member held legible (compacted_kept held)).mpr (all dir member files held some_)
    exact (compacted_perm_iff tree compacted root dirs left).mpr ((readOf_bundled_perm same).trans read)

/-! ## The result -/

/-- The replay is faithful exactly if the names of files show their tokens, files along their paths are in the order of time, and the compactor
leaves out no file that matters. -/
theorem externalReplay_faithful_iff (tree : Tree ops kind γ) (window : ReplayWindow) (slug : String) : Faithful tree window slug ↔
    Legible tree window (window.entities slug) ∧ InPathOrder tree window (window.entities slug) ∧ Compactable tree window (window.entities slug) := by
  constructor
  · intro faithful
    have legible := (complete_iff tree window slug).mp faithful.complete
    exact ⟨legible, (ordered_iff legible).mp faithful.ordered, (compaction_iff legible).mp faithful.compaction⟩
  · intro meets
    have ⟨legible, ordered, compactable⟩ := meets
    exact ⟨(complete_iff tree window slug).mpr legible, (ordered_iff legible).mpr ordered, (compaction_iff legible).mpr compactable⟩

def asciiNames : NameOps := ⟨Char.isAlphanum, fun _ => ""⟩

def hourRow (observedAtUs : ℤ) : BookRow Unit := ⟨"123", observedAtUs, none, (), by decide⟩

/-- The first hour of a day, as a provider has it, with rows of one token. -/
def providerHour (name : String) (times : List ℤ) (inside : ∀ time ∈ times, 1704067200000000 ≤ time ∧ time ≤ 1704070800000000) : WindowDir Unit where
  path := [name, "btc", "20240101T000000__20240101T010000"]
  startUs := 1704067200000000
  endUs := 1704070800000000
  content := .tokenFiles [⟨"123", times.map hourRow, fun row member => by
    have ⟨_, _, same⟩ := List.mem_map.mp member
    rw [← same, hourRow]⟩]
  below := List.cons_ne_nil _ _
  inside := by
    intro row member
    rw [WindowContent.rows, List.flatMap_singleton] at member
    have ⟨time, timeMember, same⟩ := List.mem_map.mp member
    rw [← same]
    exact inside time timeMember

def twoProviders : Tree asciiNames .snapshots Unit where
  root := ["data", "external"]
  dirs := [providerHour "polybacktest" [1704067201000000, 1704067203000000] (by decide), providerHour "telonex" [1704067202000000] (by decide)]
  apart := by decide
  once := by
    intro dir member files held
    rw [List.mem_pair] at member
    cases member with
    | inl same =>
      rw [same] at held
      rw [← WindowContent.tokenFiles.inj held]
      exact List.nodup_singleton _
    | inr same =>
      rw [same] at held
      rw [← WindowContent.tokenFiles.inj held]
      exact List.nodup_singleton _

def hourWindow : ReplayWindow where
  startUs := 1704067200000000
  endUs := 1704070800000000
  topics := ["polymarket.book.snapshot"]
  ordered := by decide
  nonempty := by decide

theorem twoProviders_out_of_order : ¬ Faithful twoProviders hourWindow "polymarket.book.snapshot" := by
  intro faithful
  have ordered := faithful.ordered
  revert ordered
  decide +kernel

end Callisto.Bus.External
