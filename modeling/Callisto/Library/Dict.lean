import Mathlib.Algebra.BigOperators.Group.List.Basic
import Mathlib.Algebra.Group.Basic
import Mathlib.Algebra.Order.BigOperators.Group.List
import Mathlib.Data.List.Basic
import Mathlib.Data.List.Nodup
import Mathlib.Data.List.Perm.Subperm
import Mathlib.Tactic.Abel

/-! A dictionary that keeps insertion order: an update of a present key stays in place, a new key
goes to the end, and an erased key that is set again goes to the end. -/

namespace Callisto.Library

structure Dict (κ ν : Type*) where
  entries : List (κ × ν)
  nodup : (entries.map Prod.fst).Nodup

namespace Dict

variable {κ ν : Type*} [DecidableEq κ]

def find (key : κ) : List (κ × ν) → Option ν
  | [] => none
  | (other, value) :: rest => if other = key then some value else find key rest

/-- Replaces the value of a present key where it stands and appends an absent one. -/
def put (key : κ) (value : ν) : List (κ × ν) → List (κ × ν)
  | [] => [(key, value)]
  | (other, old) :: rest => if other = key then (key, value) :: rest else (other, old) :: put key value rest

def drop (key : κ) : List (κ × ν) → List (κ × ν)
  | [] => []
  | (other, old) :: rest => if other = key then rest else (other, old) :: drop key rest

variable {dict : Dict κ ν} {entries : List (κ × ν)} {key : κ} {value : ν}

theorem find_eq_none_iff :
    find key entries = none ↔ key ∉ entries.map Prod.fst := by
  induction entries with
  | nil => simp [find]
  | cons entry rest ih =>
    obtain ⟨other, value⟩ := entry
    by_cases same : other = key
    · simp [find, same]
    · simp [find, same, ih, Ne.symm same]

theorem mem_of_find (found : find key entries = some value) :
    (key, value) ∈ entries := by
  induction entries with
  | nil => simp [find] at found
  | cons entry rest ih =>
    obtain ⟨other, old⟩ := entry
    by_cases same : other = key
    · subst same
      have equal : old = value := by simpa [find] using found
      simp [equal]
    · exact List.mem_cons_of_mem _ (ih (by simpa [find, same] using found))

theorem find_eq_some_iff
    (nodup : (entries.map Prod.fst).Nodup) : find key entries = some value ↔ (key, value) ∈ entries := by
  refine ⟨mem_of_find, fun member => ?_⟩
  induction entries with
  | nil => exact absurd member List.not_mem_nil
  | cons entry rest ih =>
    obtain ⟨other, old⟩ := entry
    rw [List.map_cons, List.nodup_cons] at nodup
    rcases List.mem_cons.1 member with first | later
    · obtain ⟨rfl, rfl⟩ := Prod.mk.inj first
      simp [find]
    · have different : other ≠ key := by
        rintro rfl
        exact nodup.1 (List.mem_map.2 ⟨(other, value), later, rfl⟩)
      simp [find, different, ih nodup.2 later]

theorem find_perm {first second : List (κ × ν)} (perm : first.Perm second)
    (nodup : (second.map Prod.fst).Nodup) (key : κ) : find key first = find key second := by
  have firstNodup : (first.map Prod.fst).Nodup := (perm.map Prod.fst).nodup_iff.2 nodup
  cases found : find key second with
  | none =>
    rw [find_eq_none_iff] at found ⊢
    exact fun member => found ((perm.map Prod.fst).mem_iff.1 member)
  | some value =>
    rw [find_eq_some_iff nodup] at found
    exact (find_eq_some_iff firstNodup).2 (perm.mem_iff.2 found)

theorem find_put (key other : κ) (value : ν) (entries : List (κ × ν)) :
    find other (put key value entries) = if key = other then some value else find other entries := by
  induction entries with
  | nil => simp [put, find]
  | cons entry rest ih =>
    obtain ⟨head, old⟩ := entry
    by_cases same : head = key
    · subst same
      by_cases target : head = other <;> simp [put, find, target]
    · simp only [put, if_neg same, find, ih]
      by_cases target : head = other
      · subst target
        simp [Ne.symm same]
      · simp [target]

theorem mem_keys_put {key other : κ} :
    other ∈ (put key value entries).map Prod.fst ↔ other = key ∨ other ∈ entries.map Prod.fst := by
  induction entries with
  | nil => simp [put]
  | cons entry rest ih =>
    obtain ⟨head, old⟩ := entry
    by_cases same : head = key
    · simp [put, same]
    · simp only [put, if_neg same, List.map_cons, List.mem_cons, ih]
      tauto

theorem nodup_put (nodup : (entries.map Prod.fst).Nodup) :
    ((put key value entries).map Prod.fst).Nodup := by
  induction entries with
  | nil => simp [put]
  | cons entry rest ih =>
    obtain ⟨head, old⟩ := entry
    rw [List.map_cons, List.nodup_cons] at nodup
    by_cases same : head = key
    · subst same
      simpa [put] using nodup
    · simp only [put, if_neg same, List.map_cons, List.nodup_cons, mem_keys_put, not_or]
      exact ⟨⟨same, nodup.1⟩, ih nodup.2⟩

theorem drop_sublist (key : κ) (entries : List (κ × ν)) : (drop key entries).Sublist entries := by
  induction entries with
  | nil => exact List.Sublist.refl _
  | cons entry rest ih =>
    obtain ⟨head, old⟩ := entry
    by_cases same : head = key
    · simp [drop, same]
    · simpa [drop, same] using ih

theorem nodup_drop (nodup : (entries.map Prod.fst).Nodup) :
    ((drop key entries).map Prod.fst).Nodup :=
  nodup.sublist ((drop_sublist key entries).map Prod.fst)

theorem find_drop_other {key other : κ} (different : key ≠ other) (entries : List (κ × ν)) :
    find other (drop key entries) = find other entries := by
  induction entries with
  | nil => rfl
  | cons entry rest ih =>
    obtain ⟨head, old⟩ := entry
    by_cases same : head = key
    · subst same
      simp [drop, find, different]
    · simp [drop, same, find, ih]

theorem find_drop_self (nodup : (entries.map Prod.fst).Nodup) :
    find key (drop key entries) = none := by
  induction entries with
  | nil => rfl
  | cons entry rest ih =>
    obtain ⟨head, old⟩ := entry
    rw [List.map_cons, List.nodup_cons] at nodup
    by_cases same : head = key
    · subst same
      simpa [drop] using find_eq_none_iff.2 nodup.1
    · simpa [drop, same, find] using ih nodup.2

theorem mem_put {entry : κ × ν}
    (member : entry ∈ put key value entries) : entry = (key, value) ∨ entry ∈ entries := by
  induction entries with
  | nil => simpa [put] using member
  | cons head rest ih =>
    obtain ⟨other, old⟩ := head
    by_cases same : other = key
    · rw [put, if_pos same, List.mem_cons] at member
      exact member.imp_right (List.mem_cons_of_mem _)
    · rw [put, if_neg same, List.mem_cons] at member
      rcases member with first | later
      · exact Or.inr (by simp [first])
      · exact (ih later).imp_right (List.mem_cons_of_mem _)

variable {α : Type*} [AddCommGroup α]

theorem sum_put (weight : ν → α) (key : κ) (value : ν) (entries : List (κ × ν)) :
    ((put key value entries).map (fun entry => weight entry.2)).sum =
      (entries.map (fun entry => weight entry.2)).sum - (find key entries).elim 0 weight + weight value := by
  induction entries with
  | nil => simp [put, find]
  | cons entry rest ih =>
    obtain ⟨head, old⟩ := entry
    by_cases same : head = key
    · simp only [put, find, if_pos same, List.map_cons, List.sum_cons, Option.elim_some]
      abel
    · simp only [put, find, if_neg same, List.map_cons, List.sum_cons, ih]
      abel

theorem sum_drop (weight : ν → α) (key : κ) (entries : List (κ × ν)) :
    ((drop key entries).map (fun entry => weight entry.2)).sum =
      (entries.map (fun entry => weight entry.2)).sum - (find key entries).elim 0 weight := by
  induction entries with
  | nil => simp [drop, find]
  | cons entry rest ih =>
    obtain ⟨head, old⟩ := entry
    by_cases same : head = key
    · simp only [drop, find, if_pos same, List.map_cons, List.sum_cons, Option.elim_some]
      abel
    · simp only [drop, find, if_neg same, List.map_cons, List.sum_cons, ih]
      abel

def empty : Dict κ ν := ⟨[], List.nodup_nil⟩

def get? (dict : Dict κ ν) (key : κ) : Option ν := find key dict.entries

def set (dict : Dict κ ν) (key : κ) (value : ν) : Dict κ ν :=
  ⟨put key value dict.entries, nodup_put dict.nodup⟩

def erase (dict : Dict κ ν) (key : κ) : Dict κ ν := ⟨drop key dict.entries, nodup_drop dict.nodup⟩

def mapValues (dict : Dict κ ν) (rewrite : κ → ν → ν) : Dict κ ν where
  entries := dict.entries.map (fun entry => (entry.1, rewrite entry.1 entry.2))
  nodup := by simpa [List.map_map, Function.comp_def] using dict.nodup

def values (dict : Dict κ ν) : List ν := dict.entries.map Prod.snd

def sumBy (dict : Dict κ ν) (weight : ν → α) : α := (dict.values.map weight).sum

@[simp] theorem get?_empty (key : κ) : (empty : Dict κ ν).get? key = none := rfl

theorem eq_empty (absent : ∀ key, dict.get? key = none) : dict = empty := by
  obtain ⟨entries, nodup⟩ := dict
  cases entries with
  | nil => rfl
  | cons entry rest =>
    have none_ := absent entry.1
    simp [get?, find] at none_

theorem get?_set (dict : Dict κ ν) (key other : κ) (value : ν) :
    (dict.set key value).get? other = if key = other then some value else dict.get? other :=
  find_put key other value dict.entries

theorem set_of_get? (found : dict.get? key = some value) :
    dict.set key value = dict := by
  have same : ∀ entries : List (κ × ν), find key entries = some value → put key value entries = entries := by
    intro entries
    induction entries with
    | nil => intro missing; cases missing
    | cons entry rest ih =>
      obtain ⟨other, old⟩ := entry
      intro hit
      by_cases here : other = key
      · subst here
        have equal : old = value := by simpa [find] using hit
        simp [put, equal]
      · simp [put, here, ih (by simpa [find, here] using hit)]
  obtain ⟨entries, nodup⟩ := dict
  simp only [set, same entries found]

theorem get?_erase (dict : Dict κ ν) (key other : κ) :
    (dict.erase key).get? other = if key = other then none else dict.get? other := by
  by_cases same : key = other
  · subst same
    simpa [get?, erase] using find_drop_self dict.nodup
  · simpa [get?, erase, same] using find_drop_other same dict.entries

def All (dict : Dict κ ν) (good : κ → ν → Prop) : Prop := ∀ entry ∈ dict.entries, good entry.1 entry.2

omit [DecidableEq κ] in
@[simp] theorem all_empty (good : κ → ν → Prop) : (empty : Dict κ ν).All good := fun _ member =>
  absurd member List.not_mem_nil

theorem All.of_get? {good : κ → ν → Prop} (all : dict.All good)
    (found : dict.get? key = some value) : good key value :=
  all (key, value) (mem_of_find found)

theorem All.set {good : κ → ν → Prop} (all : dict.All good)
    (new : good key value) : (dict.set key value).All good := by
  intro entry member
  rcases mem_put member with rfl | old
  · exact new
  · exact all entry old

theorem All.erase {good : κ → ν → Prop} (all : dict.All good) (key : κ) :
    (dict.erase key).All good :=
  fun entry member => all entry ((drop_sublist key dict.entries).subset member)

theorem mem_erase {entry : κ × ν} (member : entry ∈ (dict.erase key).entries) :
    entry ∈ dict.entries ∧ entry.1 ≠ key := by
  refine ⟨(drop_sublist key dict.entries).subset member, fun same => ?_⟩
  have absent : key ∉ (drop key dict.entries).map Prod.fst := find_eq_none_iff.1 (find_drop_self dict.nodup)
  exact absent (List.mem_map.2 ⟨entry, member, same⟩)

theorem get?_of_mem {entry : κ × ν} (member : entry ∈ dict.entries) : dict.get? entry.1 = some entry.2 :=
  (find_eq_some_iff dict.nodup).2 member

omit [DecidableEq κ] in
theorem All.mapValues {good : κ → ν → Prop} {rewrite : κ → ν → ν} (all : dict.All good)
    (keeps : ∀ key value, good key value → good key (rewrite key value)) :
    (dict.mapValues rewrite).All good := by
  intro entry member
  obtain ⟨old, oldMember, rfl⟩ := List.mem_map.1 member
  exact keeps old.1 old.2 (all old oldMember)

theorem filter_key_le (dict : Dict κ ν) (key : κ) : (dict.entries.filter fun entry => entry.1 = key).length ≤ 1 := by
  have count := List.nodup_iff_count_le_one.1 dict.nodup key
  rw [List.count_eq_countP, List.countP_map, List.countP_eq_length_filter] at count
  exact count

theorem mem_values_of_get? (found : dict.get? key = some value) :
    value ∈ dict.values :=
  List.mem_map.2 ⟨(key, value), mem_of_find found, rfl⟩

omit [DecidableEq κ] in
theorem mapValues_same {rewrite : κ → ν → ν}
    (same : ∀ entry ∈ dict.entries, rewrite entry.1 entry.2 = entry.2) : dict.mapValues rewrite = dict := by
  obtain ⟨entries, nodup⟩ := dict
  have each : entries.map (fun entry => (entry.1, rewrite entry.1 entry.2)) = entries := by
    conv_rhs => rw [← List.map_id entries]
    apply List.map_congr_left
    intro entry member
    rw [same entry member]
    rfl
  simp only [mapValues, each]

omit [DecidableEq κ] in
@[simp] theorem sumBy_empty (weight : ν → α) : (empty : Dict κ ν).sumBy weight = 0 := rfl

theorem sumBy_set (dict : Dict κ ν) (key : κ) (value : ν) (weight : ν → α) :
    (dict.set key value).sumBy weight = dict.sumBy weight - (dict.get? key).elim 0 weight + weight value := by
  simpa [sumBy, values, set, get?, List.map_map, Function.comp_def] using sum_put weight key value dict.entries

theorem sumBy_erase (dict : Dict κ ν) (key : κ) (weight : ν → α) :
    (dict.erase key).sumBy weight = dict.sumBy weight - (dict.get? key).elim 0 weight := by
  simpa [sumBy, values, erase, get?, List.map_map, Function.comp_def] using sum_drop weight key dict.entries

omit [DecidableEq κ] in
theorem sumBy_mapValues (dict : Dict κ ν) (rewrite : κ → ν → ν) (weight : ν → α)
    (same : ∀ key value, weight (rewrite key value) = weight value) :
    (dict.mapValues rewrite).sumBy weight = dict.sumBy weight := by
  simp [sumBy, values, mapValues, List.map_map, Function.comp_def, same]

omit [DecidableEq κ] in
theorem sumBy_sub (dict : Dict κ ν) (first second : ν → α) :
    dict.sumBy (fun value => first value - second value) = dict.sumBy first - dict.sumBy second := by
  unfold sumBy
  induction dict.values with
  | nil => simp
  | cons value rest ih =>
    simp only [List.map_cons, List.sum_cons, ih]
    abel

def add (dict : Dict κ ν) (key : κ) (value : ν) (absent : dict.get? key = none) : Dict κ ν where
  entries := dict.entries ++ [(key, value)]
  nodup := by
    have new := find_eq_none_iff.1 absent
    rw [List.map_append, List.nodup_append]
    refine ⟨dict.nodup, by simp, ?_⟩
    intro old oldMember other otherMember same
    simp only [List.map_cons, List.map_nil, List.mem_singleton] at otherMember
    rw [same, otherMember] at oldMember
    exact new oldMember

@[simp] theorem values_add (dict : Dict κ ν) (key : κ) (value : ν) (absent : dict.get? key = none) :
    (dict.add key value absent).values = dict.values ++ [value] := by
  simp [values, add]

theorem get?_add (dict : Dict κ ν) (key other : κ) (value : ν) (absent : dict.get? key = none) :
    (dict.add key value absent).get? other = if key = other then some value else dict.get? other := by
  have search : ∀ entries : List (κ × ν), find key entries = none →
      find other (entries ++ [(key, value)]) = if key = other then some value else find other entries := by
    intro entries
    induction entries with
    | nil => intro _; rfl
    | cons entry rest ih =>
      obtain ⟨head, old⟩ := entry
      intro missing
      by_cases same : head = key
      · simp [find, same] at missing
      · have tail := ih (by simpa [find, same] using missing)
        by_cases hit : head = other
        · have different : ¬ key = other := fun equal => same (hit.trans equal.symm)
          simp [find, hit, different]
        · simp [find, hit, tail]
  exact search dict.entries absent

theorem get?_add_self (dict : Dict κ ν) (key : κ) (value : ν) (absent : dict.get? key = none) :
    (dict.add key value absent).get? key = some value := by
  rw [get?_add, if_pos rfl]

theorem get?_add_other {key other : κ} (absent : dict.get? key = none)
    (different : key ≠ other) : (dict.add key value absent).get? other = dict.get? other := by
  rw [get?_add, if_neg different]

theorem get?_add_of_some {key other : κ} {value held : ν} (absent : dict.get? key = none)
    (found : dict.get? other = some held) : (dict.add key value absent).get? other = some held := by
  have different : key ≠ other := by
    rintro rfl
    rw [absent] at found
    cases found
  rw [get?_add_other absent different, found]

def sumEntries (dict : Dict κ ν) (weight : κ → ν → α) : α :=
  (dict.entries.map fun entry => weight entry.1 entry.2).sum

theorem sumEntries_add (dict : Dict κ ν) (key : κ) (value : ν) (absent : dict.get? key = none)
    (weight : κ → ν → α) :
    (dict.add key value absent).sumEntries weight = dict.sumEntries weight + weight key value := by
  simp [sumEntries, add]

theorem sumEntries_set (dict : Dict κ ν) (key : κ) (value : ν) (weight : κ → ν → α) :
    (dict.set key value).sumEntries weight = dict.sumEntries weight - (dict.get? key).elim 0 (weight key) + weight key value := by
  have each : ∀ entries : List (κ × ν), ((put key value entries).map fun entry => weight entry.1 entry.2).sum =
      (entries.map fun entry => weight entry.1 entry.2).sum - (find key entries).elim 0 (weight key) + weight key value := by
    intro entries
    induction entries with
    | nil => simp [put, find]
    | cons entry rest ih =>
      obtain ⟨head, old⟩ := entry
      by_cases same : head = key
      · subst same
        simp only [put, find, if_pos, List.map_cons, List.sum_cons, Option.elim_some]
        abel
      · simp only [put, find, if_neg same, List.map_cons, List.sum_cons, ih]
        abel
  exact each dict.entries

theorem sumEntries_reweigh (found : dict.get? key = some value)
    {first second : κ → ν → α} (same : ∀ other held, other ≠ key → first other held = second other held) :
    dict.sumEntries second = dict.sumEntries first - first key value + second key value := by
  have search : ∀ entries : List (κ × ν), (entries.map Prod.fst).Nodup → find key entries = some value →
      (entries.map fun entry => second entry.1 entry.2).sum =
        (entries.map fun entry => first entry.1 entry.2).sum - first key value + second key value := by
    intro entries
    induction entries with
    | nil => intro _ hit; cases hit
    | cons entry rest ih =>
      obtain ⟨head, old⟩ := entry
      intro nodup hit
      obtain ⟨fresh, nodupRest⟩ := List.nodup_cons.1 nodup
      simp only [List.map_cons, List.sum_cons]
      by_cases here : head = key
      · subst here
        have equal : old = value := by simpa [find] using hit
        subst equal
        have others : rest.map (fun entry => second entry.1 entry.2) = rest.map fun entry => first entry.1 entry.2 := by
          refine List.map_congr_left fun entry member => (same entry.1 entry.2 fun equal => ?_).symm
          have known : entry.1 ∈ rest.map Prod.fst := List.mem_map_of_mem member
          exact fresh (equal ▸ known)
        rw [others]
        abel
      · rw [ih nodupRest (by simpa [find, here] using hit), same head old here]
        abel
  exact search dict.entries dict.nodup found

theorem values_named {name : ν → κ} (named : dict.All fun key value => name value = key) (key : κ) :
    dict.values.filter (fun value => name value = key) = (dict.get? key).toList := by
  have search : ∀ entries : List (κ × ν), (entries.map Prod.fst).Nodup → (∀ entry ∈ entries, name entry.2 = entry.1) →
      (entries.map Prod.snd).filter (fun value => name value = key) = (find key entries).toList := by
    intro entries
    induction entries with
    | nil => intro _ _; rfl
    | cons entry rest ih =>
      obtain ⟨head, value⟩ := entry
      intro nodup known
      obtain ⟨fresh, nodupRest⟩ := List.nodup_cons.1 nodup
      have own : name value = head := known (head, value) List.mem_cons_self
      have tail := ih nodupRest fun entry member => known entry (List.mem_cons_of_mem _ member)
      rw [List.map_cons, find]
      by_cases here : head = key
      · have gone : find key rest = none := find_eq_none_iff.2 (here ▸ fresh)
        rw [if_pos here, List.filter_cons_of_pos (by simpa [own] using here), tail, gone]
        rfl
      · rw [if_neg here, List.filter_cons_of_neg (by simpa [own] using here), tail]
  exact search dict.entries dict.nodup named

theorem foldl_observed {σ α ν : Type*} {observe : σ → κ → α} {step : σ → κ × ν → σ} {change : ν → α → α}
    (spec : ∀ state entry key, observe (step state entry) key =
      if entry.1 = key then change entry.2 (observe state key) else observe state key)
    {entries : List (κ × ν)} (nodup : (entries.map Prod.fst).Nodup) (state : σ) (key : κ) :
    observe (entries.foldl step state) key = (find key entries).elim (observe state key) fun value => change value (observe state key) := by
  induction entries generalizing state with
  | nil => rfl
  | cons entry rest ih =>
    obtain ⟨head, value⟩ := entry
    obtain ⟨fresh, nodupRest⟩ := List.nodup_cons.1 nodup
    rw [List.foldl_cons, ih nodupRest, spec, find]
    by_cases here : head = key
    · have gone : find key rest = none := find_eq_none_iff.2 (here ▸ fresh)
      rw [if_pos here, if_pos here, gone]
      rfl
    · rw [if_neg here, if_neg here]

theorem get?_foldl_set {value : κ → Option ν} (agree : ∀ entry ∈ entries, value entry.1 = some entry.2)
    (dict : Dict κ ν) (key : κ) : (entries.foldl (fun known entry => known.set entry.1 entry.2) dict).get? key =
      if key ∈ entries.map Prod.fst then value key else dict.get? key := by
  induction entries generalizing dict with
  | nil => rfl
  | cons entry rest ih =>
    have head := agree entry List.mem_cons_self
    rw [List.foldl_cons, ih (fun other member => agree other (List.mem_cons_of_mem _ member)), get?_set]
    grind

theorem get?_foldl_erase (keys : List κ) (dict : Dict κ ν) (key : κ) :
    (keys.foldl erase dict).get? key = if key ∈ keys then none else dict.get? key := by
  induction keys generalizing dict with
  | nil => rfl
  | cons head keys ih =>
    rw [List.foldl_cons, ih, get?_erase]
    grind

/-- `dict.update` -/
def update (dict other : Dict κ ν) : Dict κ ν := other.entries.foldl (fun known entry => known.set entry.1 entry.2) dict

theorem get?_update (dict other : Dict κ ν) (key : κ) : (dict.update other).get? key = (other.get? key).or (dict.get? key) := by
  have folded := @foldl_observed κ _ (Dict κ ν) (Option ν) ν get? (fun known entry => known.set entry.1 entry.2)
    (fun value _ => some value) (fun known entry key => get?_set known entry.1 key entry.2) _ other.nodup dict key
  refine folded.trans ?_
  show (other.get? key).elim (dict.get? key) _ = _
  cases other.get? key with
  | none => rfl
  | some value => rfl

/-- `dict.setdefault` -/
def setDefault (dict : Dict κ ν) (key : κ) (value : ν) : Dict κ ν :=
  if (dict.get? key).isSome then dict else dict.set key value

theorem get?_setDefault (dict : Dict κ ν) (key other : κ) (value : ν) :
    (dict.setDefault key value).get? other = if key = other then (dict.get? other).or (some value) else dict.get? other := by
  unfold setDefault
  by_cases same : key = other
  · subst same
    cases held : dict.get? key with
    | none => simp [get?_set]
    | some old => simp [held]
  · rw [if_neg same]
    split
    · rfl
    · rw [get?_set, if_neg same]

def setDefaults (dict other : Dict κ ν) : Dict κ ν := other.entries.foldl (fun known entry => known.setDefault entry.1 entry.2) dict

theorem get?_setDefaults (dict other : Dict κ ν) (key : κ) : (dict.setDefaults other).get? key = (dict.get? key).or (other.get? key) := by
  have folded := @foldl_observed κ _ (Dict κ ν) (Option ν) ν get? (fun known entry => known.setDefault entry.1 entry.2)
    (fun value seen => seen.or (some value)) (fun known entry key => get?_setDefault known entry.1 key entry.2) _ other.nodup dict key
  refine folded.trans ?_
  show (other.get? key).elim (dict.get? key) _ = _
  cases other.get? key with
  | none => simp
  | some value => rfl

/-- Each entry of an old dictionary merged with what a new one has under its key. -/
def mergeEntries (merge : ν → Option ν → Option ν) (old new : Dict κ ν) : Dict κ ν :=
  old.entries.foldl (fun known entry => (merge entry.2 (known.get? entry.1)).elim known (known.set entry.1)) new

theorem get?_mergeEntries (merge : ν → Option ν → Option ν) (old new : Dict κ ν) (key : κ) : (mergeEntries merge old new).get? key =
    (old.get? key).elim (new.get? key) fun value => (merge value (new.get? key)).or (new.get? key) := by
  have spec : ∀ (known : Dict κ ν) (entry : κ × ν) (key : κ),
      ((merge entry.2 (known.get? entry.1)).elim known (known.set entry.1)).get? key =
        if entry.1 = key then (merge entry.2 (known.get? key)).or (known.get? key) else known.get? key := by
    intro known entry key
    by_cases same : entry.1 = key
    · rw [if_pos same, same]
      cases merge entry.2 (known.get? key) with
      | none => rfl
      | some merged =>
        show (known.set key merged).get? key = some merged
        rw [get?_set, if_pos rfl]
    · rw [if_neg same]
      cases merge entry.2 (known.get? entry.1) with
      | none => rfl
      | some merged =>
        show (known.set entry.1 merged).get? key = known.get? key
        rw [get?_set, if_neg same]
  exact @foldl_observed κ _ (Dict κ ν) (Option ν) ν get? _ (fun value seen => (merge value seen).or seen) spec _ old.nodup new key

theorem get?_mapValues (dict : Dict κ ν) (rewrite : κ → ν → ν) (key : κ) :
    (dict.mapValues rewrite).get? key = (dict.get? key).map (rewrite key) := by
  have search : ∀ entries : List (κ × ν),
      find key (entries.map fun entry => (entry.1, rewrite entry.1 entry.2)) = (find key entries).map (rewrite key) := by
    intro entries
    induction entries with
    | nil => rfl
    | cons entry rest ih =>
      rw [List.map_cons, find, find]
      by_cases here : entry.1 = key
      · rw [if_pos here, if_pos here, here]
        rfl
      · rw [if_neg here, if_neg here, ih]
  exact search dict.entries

def countEntries (dict : Dict κ ν) (good : κ → ν → Bool) : ℕ := dict.entries.countP fun entry => good entry.1 entry.2

theorem countEntries_le {ν' : Type*} {first : Dict κ ν} {second : Dict κ ν'} {good : κ → ν → Bool} {other : κ → ν' → Bool}
    (each : ∀ key value, first.get? key = some value → good key value = true →
      ∃ value', second.get? key = some value' ∧ other key value' = true) : first.countEntries good ≤ second.countEntries other := by
  unfold countEntries
  rw [List.countP_eq_length_filter, List.countP_eq_length_filter, ← List.length_map Prod.fst,
    ← @List.length_map _ _ (second.entries.filter _) Prod.fst]
  apply List.Subperm.length_le
  apply List.Nodup.subperm
  · exact first.nodup.sublist (List.filter_sublist.map Prod.fst)
  · intro key member
    obtain ⟨entry, chosen, rfl⟩ := List.mem_map.1 member
    obtain ⟨held, kind⟩ := List.mem_filter.1 chosen
    obtain ⟨value, found, otherKind⟩ := each entry.1 entry.2 (get?_of_mem held) kind
    exact List.mem_map.2 ⟨(entry.1, value), List.mem_filter.2 ⟨mem_of_find found, otherKind⟩, rfl⟩

theorem countEntries_set (dict : Dict κ ν) (key : κ) (value : ν) (good : κ → ν → Bool) :
    (dict.set key value).countEntries good ≤ dict.countEntries good + 1 := by
  have search : ∀ entries : List (κ × ν), (put key value entries).countP (fun entry => good entry.1 entry.2) ≤
      entries.countP (fun entry => good entry.1 entry.2) + 1 := by
    intro entries
    induction entries with
    | nil =>
      rw [put, List.countP_cons, List.countP_nil]
      split <;> omega
    | cons entry rest ih =>
      obtain ⟨head, old⟩ := entry
      rw [put]
      split
      · rw [List.countP_cons, List.countP_cons]
        split <;> split <;> omega
      · rw [List.countP_cons, List.countP_cons]
        split <;> omega
  exact search dict.entries

section Count

variable {κ ν : Type*} [DecidableEq κ] (good : ν → Prop) [DecidablePred good]

def count (dict : Dict κ ν) : ℕ := dict.values.countP good

omit [DecidableEq κ] in
theorem count_eq_sumBy (dict : Dict κ ν) : (dict.count good : ℤ) = dict.sumBy fun value => if good value then 1 else 0 := by
  unfold count sumBy
  induction dict.values with
  | nil => rfl
  | cons value rest ih =>
    by_cases chosen : good value
    · simp [chosen, ih, add_comm]
    · simp [chosen, ih]

theorem count_set (dict : Dict κ ν) (key : κ) (value : ν) : ((dict.set key value).count good : ℤ) =
    dict.count good - (dict.get? key).elim 0 (fun old => if good old then 1 else 0) + if good value then 1 else 0 := by
  rw [count_eq_sumBy, count_eq_sumBy, sumBy_set]

theorem count_pos_iff (dict : Dict κ ν) : 0 < dict.count good ↔ ∃ key value, dict.get? key = some value ∧ good value := by
  unfold count values get?
  rw [List.countP_pos_iff]
  constructor
  · rintro ⟨value, member, chosen⟩
    obtain ⟨⟨key, same⟩, mem, rfl⟩ := List.mem_map.1 member
    exact ⟨key, same, (find_eq_some_iff dict.nodup).2 mem, by simpa using chosen⟩
  · rintro ⟨key, value, found, chosen⟩
    exact ⟨value, List.mem_map.2 ⟨(key, value), mem_of_find found, rfl⟩, by simpa using chosen⟩

end Count

section Grouping

variable {κ ν ι α : Type*} [DecidableEq κ] [AddCommGroup α] {dict : Dict κ ν}

omit [DecidableEq κ] in
theorem sumBy_add (dict : Dict κ ν) (first second : ν → α) :
    dict.sumBy (fun value => first value + second value) = dict.sumBy first + dict.sumBy second := by
  simp [sumBy, List.sum_map_add]

theorem sumBy_eq_keys (dict : Dict κ ν) (weight : ν → α) :
    dict.sumBy weight = ((dict.entries.map Prod.fst).map fun key => (dict.get? key).elim 0 weight).sum := by
  unfold sumBy values
  rw [List.map_map, List.map_map]
  congr 1
  apply List.map_congr_left
  intro entry member
  show weight entry.2 = (dict.get? entry.1).elim 0 weight
  rw [get?_of_mem member]
  rfl

theorem sumBy_single {name : ν → κ} (named : ∀ key value, dict.get? key = some value → name value = key) {key : κ} {value : ν}
    (found : dict.get? key = some value) (amount : α) : dict.sumBy (fun other => if key = name other then amount else 0) = amount := by
  have keyed : dict.sumBy (fun other => if key = name other then amount else 0) =
      dict.sumEntries fun other _ => if key = other then amount else 0 := by
    unfold sumBy values sumEntries
    rw [List.map_map]
    congr 1
    apply List.map_congr_left
    intro entry member
    show (if key = name entry.2 then amount else 0) = _
    rw [named entry.1 entry.2 (get?_of_mem member)]
  have none_ : dict.sumEntries (fun _ _ => (0 : α)) = 0 := by
    unfold sumEntries
    simp
  rw [keyed, @sumEntries_reweigh _ _ _ dict key value _ _ found (fun _ _ => 0) _ fun other _ different => (if_neg (Ne.symm different)).symm,
    none_, if_pos rfl]
  abel

theorem sumBy_filter {name : ν → κ} (named : ∀ key value, dict.get? key = some value → name value = key) {items : List ι}
    {key : ι → κ} (amount : ι → α) (known : ∀ item ∈ items, ∃ value, dict.get? (key item) = some value) :
    dict.sumBy (fun value => ((items.filter fun item => key item = name value).map amount).sum) = (items.map amount).sum := by
  induction items with
  | nil => simp [sumBy]
  | cons item rest ih =>
    obtain ⟨value, found⟩ := known item List.mem_cons_self
    have split : ∀ other : ν, (((item :: rest).filter fun item => key item = name other).map amount).sum =
        (if key item = name other then amount item else 0) + ((rest.filter fun item => key item = name other).map amount).sum := by
      intro other
      rw [List.filter_cons]
      by_cases own : key item = name other
      · simp [own]
      · simp [own]
    calc dict.sumBy (fun value => (((item :: rest).filter fun item => key item = name value).map amount).sum)
        = dict.sumBy (fun value => (if key item = name value then amount item else 0) +
            ((rest.filter fun item => key item = name value).map amount).sum) := by simp only [split]
      _ = amount item + (rest.map amount).sum := by
          rw [sumBy_add, sumBy_single named found, ih fun other member => known other (List.mem_cons_of_mem _ member)]
      _ = ((item :: rest).map amount).sum := by rw [List.map_cons, List.sum_cons]

omit [DecidableEq κ] in
theorem sumBy_nonneg [PartialOrder α] [IsOrderedAddMonoid α] {weight : ν → α} (nonneg : ∀ value, 0 ≤ weight value) :
    0 ≤ dict.sumBy weight := by
  apply List.sum_nonneg
  intro amount member
  obtain ⟨value, -, rfl⟩ := List.mem_map.1 member
  exact nonneg value

theorem sumBy_le [PartialOrder α] [IsOrderedAddMonoid α] {first second : Dict κ ν} {weight other : ν → α}
    (same : ∀ key, (first.get? key).isSome = (second.get? key).isSome)
    (each : ∀ key a b, first.get? key = some a → second.get? key = some b → weight a ≤ other b) :
    first.sumBy weight ≤ second.sumBy other := by
  have member : ∀ (dict : Dict κ ν) key, key ∈ dict.entries.map Prod.fst ↔ (dict.get? key).isSome = true := by
    intro dict key
    constructor
    · intro member
      obtain ⟨entry, held, rfl⟩ := List.mem_map.1 member
      rw [get?_of_mem held]
      rfl
    · intro held
      obtain ⟨value, found⟩ := Option.isSome_iff_exists.1 held
      exact List.mem_map.2 ⟨(key, value), mem_of_find found, rfl⟩
  have perm : (first.entries.map Prod.fst).Perm (second.entries.map Prod.fst) := by
    rw [List.perm_ext_iff_of_nodup first.nodup second.nodup]
    intro key
    rw [member, member, same]
  rw [sumBy_eq_keys, sumBy_eq_keys, (perm.map fun key => (first.get? key).elim 0 weight).sum_eq]
  apply List.sum_le_sum
  intro key listed
  have held := (member second key).1 listed
  obtain ⟨b, foundSecond⟩ := Option.isSome_iff_exists.1 held
  rw [← same] at held
  obtain ⟨a, foundFirst⟩ := Option.isSome_iff_exists.1 held
  rw [foundFirst, foundSecond]
  exact each key a b foundFirst foundSecond

end Grouping

end Dict

end Callisto.Library
