import Mathlib.Data.List.Basic
import Mathlib.Data.List.Perm.Basic
import Mathlib.Data.List.TakeWhile

/-! Items in groups of one key, the groups in the order in which their keys first occur. Put one behind the other they are the items
again exactly if the items of a key already stand together. -/

namespace Callisto.Library.Grouping

variable {α κ : Type}

def Contiguous (key : α → κ) (items : List α) : Prop := ∀ first between last, [first, between, last].Sublist items →
  key first = key last → key between = key first

theorem Contiguous.sublist {key : α → κ} {items fewer : List α} (contiguous : Contiguous key items) (part : fewer.Sublist items) :
    Contiguous key fewer :=
  fun first between last within => contiguous first between last (within.trans part)

variable [DecidableEq κ] (key : α → κ)

/-- `groups.setdefault(key, []).append(item)` -/
def addItem (groups : List (κ × List α)) (item : α) : List (κ × List α) :=
  match groups with
  | [] => [(key item, [item])]
  | group :: rest => if group.1 = key item then (group.1, group.2 ++ [item]) :: rest else group :: addItem rest item

def groupItems (items : List α) : List (κ × List α) := items.foldl (addItem key) []

def grouped : List α → List (κ × List α)
  | [] => []
  | item :: rest => (key item, item :: rest.filter fun other => key other = key item) :: grouped (rest.filter fun other => key other ≠ key item)
termination_by items => items.length
decreasing_by
  rw [List.length_unattach, List.length_cons]
  exact Nat.lt_succ_of_le ((List.length_filter_le _ _).trans_eq List.length_attach)

def regroup (items : List α) : List α := (grouped key items).flatMap Prod.snd

variable {key} {items : List α}

theorem grouped_nil : grouped key [] = [] := by
  rw [grouped]

theorem grouped_cons (item : α) (rest : List α) : grouped key (item :: rest) =
    (key item, item :: rest.filter fun other => key other = key item) :: grouped key (rest.filter fun other => key other ≠ key item) := by
  rw [grouped]

theorem group_induction (key : α → κ) {motive : List α → Prop} (nil : motive [])
    (cons : ∀ item rest, motive (rest.filter fun other => key other ≠ key item) → motive (item :: rest)) (items : List α) : motive items := by
  induction length : items.length using Nat.strong_induction_on generalizing items with
  | _ size ih =>
    cases items with
    | nil => exact nil
    | cons item rest =>
      refine cons item rest (ih _ ?_ _ rfl)
      rw [← length]
      exact Nat.lt_succ_of_le (List.length_filter_le _ _)

theorem addItem_absent {groups : List (κ × List α)} {item : α} (absent : key item ∉ groups.map Prod.fst) :
    addItem key groups item = groups ++ [(key item, [item])] := by
  induction groups with
  | nil => rfl
  | cons group rest ih =>
    have other : group.1 ≠ key item := fun same => absent (same ▸ List.mem_cons_self)
    rw [addItem, if_neg other, ih fun member => absent (List.mem_cons_of_mem _ member), List.cons_append]

theorem addItem_present {groups : List (κ × List α)} {item : α} (apart : (groups.map Prod.fst).Nodup) (present : key item ∈ groups.map Prod.fst) :
    addItem key groups item = groups.map fun group => (group.1, group.2 ++ if key item = group.1 then [item] else []) := by
  induction groups with
  | nil => cases present
  | cons group rest ih =>
    obtain ⟨fresh, apart⟩ := List.nodup_cons.1 (List.map_cons ▸ apart)
    by_cases same : group.1 = key item
    · have still : (rest.map fun group => (group.1, group.2 ++ if key item = group.1 then [item] else [])) = rest := by
        refine (List.map_congr_left fun other member => ?_).trans (List.map_id rest)
        have different : key item ≠ other.1 := fun equal => fresh (List.mem_map.2 ⟨other, member, (same.trans equal).symm⟩)
        rw [if_neg different, List.append_nil]
        rfl
      rw [addItem, if_pos same, List.map_cons, still, if_pos same.symm]
    · have later : key item ∈ rest.map Prod.fst := by
        cases List.mem_cons.1 present with
        | inl equal => exact absurd equal.symm same
        | inr later => exact later
      rw [addItem, if_neg same, List.map_cons, ih apart later, if_neg (Ne.symm same), List.append_nil]

theorem foldl_addItem (key : α → κ) {groups : List (κ × List α)} (apart : (groups.map Prod.fst).Nodup) (items : List α) :
    items.foldl (addItem key) groups = (groups.map fun group => (group.1, group.2 ++ items.filter fun item => key item = group.1)) ++
      grouped key (items.filter fun item => key item ∉ groups.map Prod.fst) := by
  induction items generalizing groups with
  | nil =>
    have same : (groups.map fun group => (group.1, group.2 ++ ([] : List α).filter fun item => key item = group.1)) = groups := by simp
    rw [List.filter_nil, grouped_nil, List.append_nil]
    exact same.symm
  | cons item rest ih =>
    rw [List.foldl_cons]
    by_cases present : key item ∈ groups.map Prod.fst
    · have names : ((groups.map fun group => (group.1, group.2 ++ if key item = group.1 then [item] else [])).map Prod.fst) =
        groups.map Prod.fst := by
        rw [List.map_map]
        rfl
      rw [addItem_present apart present, ih (names ▸ apart), names, List.map_map]
      congr 1
      · refine List.map_congr_left fun group _ => ?_
        by_cases mine : key item = group.1
        · simp [mine]
        · simp [mine]
      · rw [List.filter_cons_of_neg (by simpa using present)]
    · have names : ((groups ++ [(key item, [item])]).map Prod.fst).Nodup := by
        rw [List.map_append]
        refine List.nodup_append.2 ⟨apart, List.pairwise_singleton _ _, fun one held other member equal => present ?_⟩
        have same : one = key item := equal.trans (List.mem_singleton.1 member)
        exact same ▸ held
      have left : (rest.filter fun other => key other ∉ (groups ++ [(key item, [item])]).map Prod.fst) =
          (rest.filter fun other => key other ∉ groups.map Prod.fst).filter fun other => key other ≠ key item := by
        rw [List.filter_filter]
        refine List.filter_congr fun other _ => Bool.eq_iff_iff.2 ?_
        rw [List.map_append, Bool.and_eq_true, decide_eq_true_iff, decide_eq_true_iff, decide_eq_true_iff, List.mem_append, not_or, and_comm]
        exact and_congr_left' (not_congr List.mem_singleton)
      have own : (rest.filter fun other => key other ∉ groups.map Prod.fst).filter (fun other => key other = key item) =
          rest.filter fun other => key other = key item := by
        rw [List.filter_filter]
        refine List.filter_congr fun other _ => Bool.eq_iff_iff.2 ?_
        rw [Bool.and_eq_true, decide_eq_true_iff, decide_eq_true_iff]
        exact and_iff_left_of_imp fun same => same ▸ present
      have old : (groups.map fun group => (group.1, group.2 ++ (item :: rest).filter fun other => key other = group.1)) =
          groups.map fun group => (group.1, group.2 ++ rest.filter fun other => key other = group.1) := by
        refine List.map_congr_left fun group member => ?_
        have other : key item ≠ group.1 := fun same => present (same ▸ List.mem_map_of_mem member)
        rw [List.filter_cons_of_neg (by simpa using other)]
      rw [addItem_absent present, ih names, List.filter_cons_of_pos (by simpa using present), grouped_cons, own, old, left, List.map_append,
        List.append_assoc]
      rfl

theorem groupItems_eq (key : α → κ) (items : List α) : groupItems key items = grouped key items := by
  have none : (([] : List (κ × List α)).map Prod.fst).Nodup := List.nodup_nil
  have all := foldl_addItem key none items
  have whole : (items.filter fun item => key item ∉ (([] : List (κ × List α)).map Prod.fst)) = items :=
    List.filter_eq_self.2 fun item _ => decide_eq_true List.not_mem_nil
  rw [whole] at all
  exact all

theorem mem_grouped {group : κ × List α} {item : α} (member : group ∈ grouped key items) (inside : item ∈ group.2) : key item = group.1 := by
  induction items using group_induction key with
  | nil =>
    rw [grouped_nil] at member
    cases member
  | cons first rest ih =>
    rw [grouped_cons] at member
    cases List.mem_cons.1 member with
    | inl same =>
      subst same
      cases List.mem_cons.1 inside with
      | inl equal => rw [equal]
      | inr later => exact of_decide_eq_true (List.mem_filter.1 later).2
    | inr later => exact ih later

theorem grouped_filter (kept : κ → Bool) (items : List α) :
    grouped key (items.filter fun item => kept (key item)) = (grouped key items).filter fun group => kept group.1 := by
  induction items using group_induction key with
  | nil => rw [List.filter_nil, grouped_nil, List.filter_nil]
  | cons item rest ih =>
    rw [grouped_cons]
    by_cases keeps : kept (key item) = true
    · have own : (rest.filter fun other => kept (key other)).filter (fun other => key other = key item) =
          rest.filter fun other => key other = key item := by
        rw [List.filter_filter]
        refine List.filter_congr fun other _ => Bool.eq_iff_iff.2 ?_
        rw [Bool.and_eq_true, decide_eq_true_iff]
        exact and_iff_left_of_imp fun same => same ▸ keeps
      rw [List.filter_cons, if_pos keeps, List.filter_cons, if_pos keeps, grouped_cons, own, List.filter_comm, ih]
    · have gone : ((rest.filter fun other => key other ≠ key item).filter fun other => kept (key other)) =
        rest.filter fun other => kept (key other) := by
        rw [List.filter_filter]
        refine List.filter_congr fun other _ => Bool.eq_iff_iff.2 ?_
        rw [Bool.and_eq_true, decide_eq_true_iff]
        exact and_iff_left_of_imp fun held same => keeps (same ▸ held)
      rw [List.filter_cons, if_neg keeps, List.filter_cons, if_neg keeps, ← ih, gone]

theorem regroup_filter (kept : κ → Bool) (items : List α) :
    (regroup key items).filter (fun item => kept (key item)) = regroup key (items.filter fun item => kept (key item)) := by
  unfold regroup
  rw [grouped_filter, List.filter_flatMap]
  have parts : ∀ groups : List (κ × List α), (∀ group ∈ groups, ∀ item ∈ group.2, key item = group.1) →
      (groups.flatMap fun group => group.2.filter fun item => kept (key item)) = (groups.filter fun group => kept group.1).flatMap Prod.snd := by
    intro groups keyed
    induction groups with
    | nil => rfl
    | cons group rest ih =>
      have later := ih fun other member => keyed other (List.mem_cons_of_mem _ member)
      have same : ∀ item ∈ group.2, kept (key item) = kept group.1 := fun item member => by
        rw [keyed group List.mem_cons_self item member]
      rw [List.flatMap_cons, later, List.filter_congr same]
      by_cases keeps : kept group.1 = true
      · rw [List.filter_cons, if_pos keeps, List.flatMap_cons, List.filter_eq_self.2 fun _ _ => keeps]
      · rw [List.filter_cons, if_neg keeps, List.filter_eq_nil_iff.2 fun _ _ => keeps, List.nil_append]
  exact parts _ fun group member item inside => mem_grouped member inside

theorem regroup_perm (key : α → κ) (items : List α) : (regroup key items).Perm items := by
  unfold regroup
  induction items using group_induction key with
  | nil =>
    rw [grouped_nil]
    exact .refl _
  | cons item rest ih =>
    rw [grouped_cons, List.flatMap_cons, List.cons_append]
    have apart : (rest.filter fun other => decide (key other ≠ key item)) = rest.filter fun other => !decide (key other = key item) :=
      List.filter_congr fun other _ => by simp
    rw [apart] at ih ⊢
    exact ((ih.append_left _).trans (List.filter_append_perm _ rest)).cons item

theorem regroup_cons (item : α) (rest : List α) : regroup key (item :: rest) =
    item :: (rest.filter (fun other => key other = key item) ++ regroup key (rest.filter fun other => key other ≠ key item)) := by
  unfold regroup
  rw [grouped_cons]
  rfl

theorem regroup_contiguous (key : α → κ) (items : List α) : Contiguous key (regroup key items) := by
  induction items using group_induction key with
  | nil =>
    intro first between last within
    rw [regroup, grouped_nil] at within
    cases within
  | cons item rest ih =>
    intro first between last within same
    rw [regroup_cons, ← List.cons_append] at within
    obtain ⟨front, back, split, here, there⟩ := List.sublist_append_iff.1 within
    have mine : ∀ other ∈ front, key other = key item := fun other member => by
      cases List.mem_cons.1 (here.subset member) with
      | inl equal => rw [equal]
      | inr later => exact of_decide_eq_true (List.mem_filter.1 later).2
    have theirs : ∀ other ∈ back, key other ≠ key item := fun other member =>
      of_decide_eq_true (List.mem_filter.1 ((regroup_perm key _).subset (there.subset member))).2
    match front, split with
    | [], split =>
      rw [List.nil_append] at split
      rw [← split] at there
      exact ih first between last there same
    | [one], split =>
      obtain ⟨rfl, tail⟩ := List.cons.inj split
      have last_ : last ∈ back := by
        have tail : [between, last] = back := tail
        rw [← tail]
        exact List.mem_cons_of_mem _ List.mem_cons_self
      exact absurd ((mine first List.mem_cons_self).symm.trans same).symm (theirs last last_)
    | one :: two :: more, split =>
      obtain ⟨rfl, tail⟩ := List.cons.inj split
      obtain ⟨rfl, -⟩ := List.cons.inj tail
      exact (mine between (List.mem_cons_of_mem _ List.mem_cons_self)).trans (mine first List.mem_cons_self).symm

theorem regroup_eq_iff : regroup key items = items ↔ Contiguous key items := by
  refine ⟨fun same => same ▸ regroup_contiguous key items, fun contiguous => ?_⟩
  induction items using group_induction key with
  | nil => rw [regroup, grouped_nil]; rfl
  | cons item rest ih =>
    have closed : rest.Pairwise fun one other => key other = key item → key one = key item := by
      refine List.pairwise_iff_forall_sublist.2 fun {one other} within same => ?_
      exact contiguous item one other (within.cons_cons item) same.symm
    rw [regroup_cons, ih (contiguous.sublist (List.filter_sublist.trans (List.sublist_cons_self _ _)))]
    refine congrArg (item :: ·) ?_
    clear contiguous ih
    induction rest with
    | nil => rfl
    | cons next rest ih =>
      obtain ⟨before, later⟩ := List.pairwise_cons.1 closed
      by_cases mine : key next = key item
      · rw [List.filter_cons_of_pos (by simpa using mine), List.filter_cons_of_neg (by simpa using mine), List.cons_append, ih later]
      · have none : rest.filter (fun other => key other = key item) = [] :=
          List.filter_eq_nil_iff.2 fun other member same => mine (before other member (of_decide_eq_true same))
        have all : rest.filter (fun other => key other ≠ key item) = rest :=
          List.filter_eq_self.2 fun other member => decide_eq_true fun same => mine (before other member same)
        rw [List.filter_cons_of_neg (by simpa using mine), List.filter_cons_of_pos (by simpa using mine), none, all, List.nil_append]

theorem takeWhile_filter (kept allowed : α → Bool) (allows : ∀ item, kept item = false → allowed item = true) (items : List α) :
    (items.filter kept).takeWhile allowed = (items.takeWhile allowed).filter kept := by
  induction items with
  | nil => rfl
  | cons item rest ih =>
    by_cases keeps : kept item = true
    · by_cases goes : allowed item = true
      · rw [List.filter_cons_of_pos keeps, List.takeWhile_cons_of_pos goes, List.takeWhile_cons_of_pos goes, List.filter_cons_of_pos keeps, ih]
      · rw [List.filter_cons_of_pos keeps, List.takeWhile_cons_of_neg goes, List.takeWhile_cons_of_neg goes]
        rfl
    · have goes := allows item (Bool.eq_false_iff.2 keeps)
      rw [List.filter_cons_of_neg keeps, List.takeWhile_cons_of_pos goes, List.filter_cons_of_neg keeps, ih]

theorem grouped_takeWhile (allowed : κ → Bool) (items : List α) : ((grouped key items).takeWhile fun group => allowed group.1) =
    grouped key (items.filter fun item => key item ∈ (items.takeWhile fun item => allowed (key item)).map key) := by
  induction items using group_induction key with
  | nil =>
    rw [List.filter_nil, grouped_nil]
    rfl
  | cons item rest ih =>
    rw [grouped_cons, List.takeWhile_cons]
    by_cases allows : allowed (key item) = true
    · have early := takeWhile_filter (fun other => decide (key other ≠ key item)) (fun other => allowed (key other))
        (fun other same => (Decidable.of_not_not (of_decide_eq_false same)).symm ▸ allows) rest
      have front : ((item :: rest).takeWhile fun other => allowed (key other)) = item :: rest.takeWhile fun other => allowed (key other) := by
        rw [List.takeWhile_cons, if_pos allows]
      have own : (rest.filter fun other => key other ∈ (item :: rest.takeWhile fun other => allowed (key other)).map key).filter
          (fun other => key other = key item) = rest.filter fun other => key other = key item := by
        rw [List.filter_filter]
        refine List.filter_congr fun other _ => Bool.eq_iff_iff.2 ?_
        rw [Bool.and_eq_true, decide_eq_true_iff, decide_eq_true_iff]
        exact and_iff_left_of_imp fun same => same ▸ List.mem_cons_self
      have others : (rest.filter fun other => key other ∈ (item :: rest.takeWhile fun other => allowed (key other)).map key).filter
          (fun other => key other ≠ key item) = (rest.filter fun other => key other ≠ key item).filter fun other =>
            key other ∈ ((rest.filter fun other => key other ≠ key item).takeWhile fun other => allowed (key other)).map key := by
        rw [early, List.filter_comm]
        refine List.filter_congr fun other member => Bool.eq_iff_iff.2 ?_
        have different : key other ≠ key item := of_decide_eq_true (List.mem_filter.1 member).2
        rw [decide_eq_true_iff, decide_eq_true_iff, List.map_cons, List.mem_cons, List.mem_map, List.mem_map]
        constructor
        · intro found
          obtain ⟨one, there, same⟩ := found.resolve_left different
          exact ⟨one, List.mem_filter.2 ⟨there, decide_eq_true (same ▸ different)⟩, same⟩
        · intro found
          obtain ⟨one, there, same⟩ := found
          exact Or.inr ⟨one, (List.mem_filter.1 there).1, same⟩
      have mine : key item ∈ (item :: rest.takeWhile fun other => allowed (key other)).map key := List.mem_cons_self
      rw [if_pos allows, ih, front, List.filter_cons, if_pos (decide_eq_true mine), grouped_cons, own, others]
    · have none : ((item :: rest).takeWhile fun other => allowed (key other)) = [] := by
        rw [List.takeWhile_cons, if_neg allows]
      rw [if_neg allows, none, List.map_nil, List.filter_eq_nil_iff.2 fun other _ held => List.not_mem_nil (of_decide_eq_true held), grouped_nil]

theorem grouped_findSome {γ : Type} (found : κ → Option γ) (items : List α) :
    ((grouped key items).findSome? fun group => found group.1) = items.findSome? fun item => found (key item) := by
  induction items using group_induction key with
  | nil => rw [grouped_nil]; rfl
  | cons item rest ih =>
    rw [grouped_cons, List.findSome?_cons, List.findSome?_cons, ih]
    cases mine : found (key item) with
    | some _ => rfl
    | none =>
      dsimp only
      clear ih
      induction rest with
      | nil => rfl
      | cons next rest ih =>
        by_cases same : key next = key item
        · rw [List.filter_cons_of_neg (by simpa using same), List.findSome?_cons, same, mine, ih]
        · rw [List.filter_cons_of_pos (by simpa using same), List.findSome?_cons, List.findSome?_cons, ih]

section Early

variable (allowed chosen : κ → Bool)

/-- The items before the first whose key is refused, and with them the later ones of their keys. -/
def reached (key : α → κ) (items : List α) : List α :=
  items.filter fun item => key item ∈ (items.takeWhile fun item => allowed (key item)).map key

variable {allowed}

theorem reached_eq (items : List α) : reached allowed key items = (items.takeWhile fun item => allowed (key item)) ++
    (items.dropWhile fun item => allowed (key item)).filter fun item => key item ∈ (items.takeWhile fun item => allowed (key item)).map key := by
  unfold reached
  have parts := List.takeWhile_append_dropWhile (p := fun item => allowed (key item)) (l := items)
  generalize items.takeWhile (fun item => allowed (key item)) = early at parts ⊢
  generalize items.dropWhile (fun item => allowed (key item)) = late at parts ⊢
  subst parts
  rw [List.filter_append, List.filter_eq_self.2 fun item member => decide_eq_true (List.mem_map_of_mem member)]

/-- Regrouped, the items that are reached have of the chosen keys just the early ones, in their order, exactly if those stand together
and no late one is reached. -/
theorem regroup_reached_iff (items : List α) : ((regroup key (reached allowed key items)).filter fun item => chosen (key item)) =
    (items.takeWhile fun item => allowed (key item)).filter (fun item => chosen (key item)) ↔
      Contiguous key ((items.takeWhile fun item => allowed (key item)).filter fun item => chosen (key item)) ∧
        ∀ item ∈ items.dropWhile fun item => allowed (key item),
          key item ∈ (items.takeWhile fun item => allowed (key item)).map key → chosen (key item) = false := by
  rw [regroup_filter, reached_eq, List.filter_append]
  generalize items.takeWhile (fun item => allowed (key item)) = early
  generalize items.dropWhile (fun item => allowed (key item)) = late
  have late_iff : ((late.filter fun item => key item ∈ early.map key).filter fun item => chosen (key item)) = [] ↔
      ∀ item ∈ late, key item ∈ early.map key → chosen (key item) = false := by
    rw [List.filter_eq_nil_iff]
    constructor
    · exact fun none item member reached => Bool.eq_false_iff.2 (none item (List.mem_filter.2 ⟨member, decide_eq_true reached⟩))
    · intro none item member
      obtain ⟨held, reached⟩ := List.mem_filter.1 member
      exact Bool.eq_false_iff.1 (none item held (of_decide_eq_true reached))
  rw [← late_iff]
  constructor
  · intro same
    have lengths := (regroup_perm key (early.filter (fun item => chosen (key item)) ++
      (late.filter fun item => key item ∈ early.map key).filter fun item => chosen (key item))).length_eq
    rw [same, List.length_append] at lengths
    have none : ((late.filter fun item => key item ∈ early.map key).filter fun item => chosen (key item)) = [] :=
      List.length_eq_zero_iff.1 (by omega)
    rw [none, List.append_nil] at same
    exact ⟨regroup_eq_iff.1 same, none⟩
  · intro good
    rw [good.2, List.append_nil]
    exact regroup_eq_iff.2 good.1

end Early

end Callisto.Library.Grouping
