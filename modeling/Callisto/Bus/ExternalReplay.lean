import Callisto.Bus.ExternalParquet
import Callisto.Bus.ParquetReplay

/-! What the replay of the external layout yields: of each window directory that is found the rows whose token is read out of the name of
their file. -/

namespace Callisto.Bus.External

open Callisto.Library
open Callisto.Recorder (Kind)
open List

variable {γ : Type} {ops : NameOps} {kind : Kind} {window : ReplayWindow} {entities : Option (List String)}

/-! ## Lists -/

theorem flatMap_filterMap {α β δ : Type} (items : List α) (chosen : α → Option β) (next : β → List δ) :
    (items.filterMap chosen).flatMap next = items.flatMap fun item => (chosen item).elim [] next := by
  induction items with
  | nil => rfl
  | cons item items ih =>
    cases here : chosen item with
    | none => rw [List.filterMap_cons_none here, List.flatMap_cons, here, ih, Option.elim_none, List.nil_append]
    | some value => rw [List.filterMap_cons_some here, List.flatMap_cons, List.flatMap_cons, here, ih, Option.elim_some]

theorem flatMap_filter_of_nil {α β : Type} {items : List α} {chosen : α → Bool} {next : α → List β}
    (empty : ∀ item ∈ items, chosen item = false → next item = []) : (items.filter chosen).flatMap next = items.flatMap next := by
  induction items with
  | nil => rfl
  | cons item items ih =>
    have rest := ih fun other member => empty other (List.mem_cons_of_mem item member)
    cases here : chosen item with
    | true => rw [List.filter_cons_of_pos here, List.flatMap_cons, List.flatMap_cons, rest]
    | false => rw [List.filter_cons_of_neg (by simp [here]), List.flatMap_cons, empty item List.mem_cons_self here, rest, List.nil_append]

theorem map_filter_eq_nil {α β : Type} {items : List α} {chosen : α → Bool} {function : α → β} (none_ : ∀ item ∈ items, chosen item = false) :
    (items.filter chosen).map function = [] := by
  rw [List.filter_eq_nil_iff.mpr fun item member => by simp [none_ item member], List.map_nil]

/-! ## Reading -/

def wanted (window : ReplayWindow) (entities : Option (List String)) (row : BookRow γ) : Bool := covers window row && allows entities row.tokenId

/-- The token of a row is the one that is read out of the name of its file; a bundle has the tokens in its rows. -/
def legible (ops : NameOps) (kind : Kind) (content : WindowContent γ) (row : BookRow γ) : Bool :=
  match content with
  | .bundle _ => true
  | .tokenFiles _ => fileToken ops kind row.tokenId = some row.tokenId

def readsRow (ops : NameOps) (kind : Kind) (window : ReplayWindow) (entities : Option (List String)) (content : WindowContent γ) (row : BookRow γ) :
    Bool :=
  wanted window entities row && 0 < row.observedAtUs && legible ops kind content row

theorem readRows_perm (window : ReplayWindow) (entities : Option (List String)) (file : OpenedFile γ) :
    readRows window entities file ~ (file.rows.filter (keepsRow window entities file.token)).map (toEvent file.provider) :=
  List.perm_insertionSort _ _

theorem tokenFile_perm (root : List String) (dir : WindowDir γ) {files : List (TokenFile γ)} (held : dir.content = .tokenFiles files)
    (file : TokenFile γ) :
    (openTokenFile ops kind entities root dir file).elim [] (readRows window entities) ~
    (file.rows.filter (readsRow ops kind window entities dir.content)).map (toEvent (provider root dir)) := by
  unfold openTokenFile
  cases named : fileToken ops kind file.tokenId with
  | none =>
    rw [map_filter_eq_nil]
    · exact .refl _
    · intro row member
      simp [readsRow, legible, held, file.own row member, named]
  | some token =>
    by_cases allowed : allows entities token = true
    · simp only [allowed, if_true, Option.elim_some]
      refine (readRows_perm window entities _).trans (List.Perm.of_eq ?_)
      congr 1
      apply List.filter_congr
      intro row member
      by_cases same : token = file.tokenId
      · subst same
        simp [keepsRow, readsRow, wanted, legible, held, file.own row member, named, allowed]
      · have other : ¬ file.tokenId = token := fun equal => same equal.symm
        simp [keepsRow, readsRow, legible, held, file.own row member, named, same, other]
    · simp only [allowed, Bool.false_eq_true, if_false, Option.elim_none]
      rw [map_filter_eq_nil]
      intro row member
      by_cases same : token = file.tokenId
      · rw [Bool.not_eq_true] at allowed
        simp [readsRow, wanted, file.own row member, ← same, allowed]
      · simp [readsRow, legible, held, file.own row member, named, same]

theorem openFiles_perm (root : List String) (dir : WindowDir γ) :
    (openFiles ops kind entities root dir).flatMap (readRows window entities) ~
      (dir.content.rows.filter (readsRow ops kind window entities dir.content)).map (toEvent (provider root dir)) := by
  cases held : dir.content with
  | bundle rows =>
    have reads : ∀ row ∈ rows, keepsRow window entities none row = readsRow ops kind window entities (.bundle rows) row := by
      intro row _
      simp [keepsRow, readsRow, wanted, legible, Bool.and_assoc]
    unfold openFiles
    simp only [held, WindowContent.rows]
    split
    · simp only [List.flatMap_cons, List.flatMap_nil, List.append_nil]
      refine (readRows_perm window entities _).trans (List.Perm.of_eq ?_)
      rw [List.filter_congr reads]
    · next closed =>
      rw [map_filter_eq_nil]
      · exact .refl _
      · intro row member
        rw [not_or, Bool.not_eq_true, List.any_eq_false] at closed
        have refused := closed.2 row member
        rw [Bool.not_eq_true] at refused
        simp [readsRow, wanted, refused]
  | tokenFiles files =>
    unfold openFiles
    simp only [held, WindowContent.rows]
    rw [flatMap_filterMap, List.filter_flatMap, List.map_flatMap]
    refine ((List.perm_insertionSort _ files).flatMap_right _).trans (List.Perm.flatMap_left files fun file _ => ?_)
    have read : (openTokenFile ops kind entities root dir file).elim [] (readRows window entities) ~
        (file.rows.filter (readsRow ops kind window entities dir.content)).map (toEvent (provider root dir)) := tokenFile_perm root dir held file
    rwa [held] at read

/-! ## All directories -/

def placed (tree : Tree ops kind γ) : List (WindowDir γ × BookRow γ) :=
  tree.dirs.flatMap fun dir => dir.content.rows.map fun row => (dir, row)

def placedEvent (root : List String) (place : WindowDir γ × BookRow γ) : ExternalEvent γ := toEvent (provider root place.1) place.2

def yields (tree : Tree ops kind γ) (window : ReplayWindow) (entities : Option (List String)) (place : WindowDir γ × BookRow γ) : Bool :=
  place.1.found tree.dirs && readsRow ops kind window entities place.1.content place.2

theorem overlaps_of_covers {dir : WindowDir γ} {row : BookRow γ} (member : row ∈ dir.content.rows) (covered : covers window row = true) :
    dir.overlaps window = true := by
  have inside := dir.inside row member
  unfold covers at covered
  rw [Bool.and_eq_true, decide_eq_true_eq, decide_eq_true_eq] at covered
  unfold WindowDir.overlaps
  rw [decide_eq_true_eq]
  omega

theorem map_placed (tree : Tree ops kind γ) (chosen : WindowDir γ × BookRow γ → Bool) :
    ((placed tree).filter chosen).map (placedEvent tree.root) =
      tree.dirs.flatMap fun dir => (dir.content.rows.filter fun row => chosen (dir, row)).map (toEvent (provider tree.root dir)) := by
  unfold placed
  rw [List.filter_flatMap, List.map_flatMap]
  congr 1
  funext dir
  rw [List.filter_map, List.map_map]
  rfl

theorem discover_perm (tree : Tree ops kind γ) (window : ReplayWindow) (entities : Option (List String)) :
    (discover ops window entities tree).flatMap (readRows window entities) ~
      ((placed tree).filter (yields tree window entities)).map (placedEvent tree.root) := by
  have opened : ((tree.dirs.filter fun dir => dir.found tree.dirs).filter fun dir => dir.overlaps window).flatMap
      (fun dir => (dir.content.rows.filter fun row => yields tree window entities (dir, row)).map (toEvent (provider tree.root dir))) =
      tree.dirs.flatMap fun dir =>
        (dir.content.rows.filter fun row => yields tree window entities (dir, row)).map (toEvent (provider tree.root dir)) := by
    rw [List.filter_filter]
    apply flatMap_filter_of_nil
    intro dir _ closed
    apply map_filter_eq_nil
    intro row member
    rw [Bool.and_eq_false_iff] at closed
    cases closed with
    | inl apart =>
      have uncovered : covers window row = false := by
        rw [Bool.eq_false_iff]
        intro covered
        rw [overlaps_of_covers member covered] at apart
        contradiction
      simp [yields, readsRow, wanted, uncovered]
    | inr hidden => simp [yields, hidden]
  rw [map_placed, ← opened]
  unfold discover
  rw [List.flatMap_assoc]
  refine (((List.perm_insertionSort _ _).filter _).flatMap_right _).trans (List.Perm.flatMap_left _ fun dir member => ?_)
  have found := (List.mem_filter.mp (List.mem_filter.mp member).1).2
  refine (openFiles_perm tree.root dir).trans (List.Perm.of_eq ?_)
  congr 1
  apply List.filter_congr
  intro row _
  simp [yields, found]

/-! ## Streams -/

theorem mem_tokens {opened : List (OpenedFile γ)} {token : String} :
    token ∈ (opened.filterMap OpenedFile.token).dedup ↔ ∃ file ∈ opened, file.token = some token := by
  rw [List.mem_dedup, List.mem_filterMap]

theorem content_streams (window : ReplayWindow) (entities : Option (List String)) (opened : List (OpenedFile γ)) :
    content (streams window entities opened) ~ opened.flatMap (readRows window entities) := by
  have tokens : ((opened.filterMap OpenedFile.token).dedup.flatMap fun token => (tokenFiles opened token).flatMap (readRows window entities)) ~
      (opened.filter fun file => file.token.isSome).flatMap (readRows window entities) := by
    have names : ((opened.filterMap OpenedFile.token).dedup.map some).Nodup := (List.nodup_dedup _).map (Option.some_injective String)
    have keyed := flatMap_keys OpenedFile.token (readRows window entities) opened names
    have listed : ∀ file ∈ opened, file.token ∈ (opened.filterMap OpenedFile.token).dedup.map some ↔ file.token.isSome = true := by
      intro file member
      cases named : file.token with
      | none => simp
      | some token => simpa using mem_tokens.mpr ⟨file, member, named⟩
    rw [List.flatMap_map] at keyed
    refine ((List.Perm.flatMap_left _ fun token _ => (List.perm_insertionSort _ _).flatMap_right _).trans keyed).trans (List.Perm.of_eq ?_)
    refine congrArg (List.flatMap (readRows window entities)) (List.filter_congr fun file member => ?_)
    simp only [listed file member, Bool.decide_eq_true]
  have bundles : (opened.filter fun file => file.token = none) = opened.filter fun file => !file.token.isSome := by
    apply List.filter_congr
    intro file _
    cases file.token <;> rfl
  unfold content streams
  rw [List.flatMap_append, List.flatMap_map, List.flatMap_map, bundles]
  refine (tokens.append_right _).trans ?_
  rw [← List.flatMap_append]
  exact (List.filter_append_perm (fun file => file.token.isSome) opened).flatMap_right _

end Callisto.Bus.External
