import Callisto.Library.Dict

/-! A dictionary kept in order of use: a stored key moves to the end, and entries are dropped from the front while there are too many. -/

namespace Callisto.Library.Lru

variable {κ ν : Type*} [DecidableEq κ]

def moveToEnd (dict : Dict κ ν) (key : κ) : Dict κ ν :=
  match dict.get? key with
  | none => dict
  | some value => (dict.erase key).set key value

/-- Drops the first entry while more than `bound` are left. -/
def dropOldest (bound : ℕ) : List (κ × ν) → List (κ × ν)
  | [] => []
  | entry :: rest => if bound < rest.length + 1 then dropOldest bound rest else entry :: rest

omit [DecidableEq κ] in
theorem dropOldest_suffix (bound : ℕ) (entries : List (κ × ν)) : dropOldest bound entries <:+ entries := by
  induction entries with
  | nil => exact List.suffix_rfl
  | cons entry rest ih =>
    rw [dropOldest]
    by_cases tooMany : bound < rest.length + 1
    · rw [if_pos tooMany]
      exact ih.trans (List.suffix_cons entry rest)
    · have kept : (if bound < rest.length + 1 then dropOldest bound rest else entry :: rest) = entry :: rest := if_neg tooMany
      exact (congrArg (fun dropped => dropped <:+ entry :: rest) kept).mpr List.suffix_rfl

omit [DecidableEq κ] in
theorem length_dropOldest (bound : ℕ) (entries : List (κ × ν)) : (dropOldest bound entries).length = min bound entries.length := by
  induction entries with
  | nil => simp [dropOldest]
  | cons entry rest ih =>
    rw [dropOldest]
    by_cases tooMany : bound < rest.length + 1
    · rw [if_pos tooMany, ih, List.length_cons]
      omega
    · rw [if_neg tooMany, List.length_cons]
      omega

omit [DecidableEq κ] in
theorem dropOldest_of_le {bound : ℕ} {entries : List (κ × ν)} (fits : entries.length ≤ bound) : dropOldest bound entries = entries := by
  have length := length_dropOldest bound entries
  rw [min_eq_right fits] at length
  exact (dropOldest_suffix bound entries).eq_of_length length

omit [DecidableEq κ] in
theorem mem_dropOldest_concat {bound : ℕ} (room : 0 < bound) (entries : List (κ × ν)) (newest : κ × ν) :
    newest ∈ dropOldest bound (entries ++ [newest]) := by
  have length : (dropOldest bound (entries ++ [newest])).length = min bound (entries.length + 1) := by
    rw [length_dropOldest, List.length_append, List.length_singleton]
  have nonempty : dropOldest bound (entries ++ [newest]) ≠ [] := by
    intro empty
    rw [empty, List.length_nil] at length
    omega
  have last := (dropOldest_suffix bound (entries ++ [newest])).getLast nonempty
  rw [List.getLast_append_singleton] at last
  have member := List.getLast_mem nonempty
  rwa [last] at member

def evict (bound : ℕ) (dict : Dict κ ν) : Dict κ ν where
  entries := dropOldest bound dict.entries
  nodup := dict.nodup.sublist ((dropOldest_suffix bound dict.entries).sublist.map Prod.fst)

def store (bound : ℕ) (dict : Dict κ ν) (key : κ) (value : ν) : Dict κ ν := evict bound (moveToEnd (dict.set key value) key)

theorem put_absent {key : κ} {value : ν} {entries : List (κ × ν)} (absent : Dict.find key entries = none) :
    Dict.put key value entries = entries ++ [(key, value)] := by
  induction entries with
  | nil => rfl
  | cons entry rest ih =>
    obtain ⟨other, old⟩ := entry
    by_cases same : other = key
    · simp [Dict.find, same] at absent
    · rw [Dict.find, if_neg same] at absent
      rw [Dict.put, if_neg same, ih absent, List.cons_append]

theorem moveToEnd_set (dict : Dict κ ν) (key : κ) (value : ν) :
    (moveToEnd (dict.set key value) key).entries = ((dict.set key value).erase key).entries ++ [(key, value)] := by
  have found : (dict.set key value).get? key = some value := by rw [Dict.get?_set, if_pos rfl]
  have absent : Dict.find key ((dict.set key value).erase key).entries = none := Dict.find_drop_self (dict.set key value).nodup
  unfold moveToEnd
  rw [found]
  exact put_absent absent

theorem mem_store {bound : ℕ} {dict : Dict κ ν} {key : κ} {value : ν} {entry : κ × ν}
    (member : entry ∈ (store bound dict key value).entries) : entry = (key, value) ∨ (entry ∈ dict.entries ∧ entry.1 ≠ key) := by
  have moved : entry ∈ (moveToEnd (dict.set key value) key).entries := (dropOldest_suffix bound _).subset member
  rw [moveToEnd_set, List.mem_append, List.mem_singleton] at moved
  rcases moved with old | new
  · have kept := Dict.mem_erase old
    rcases Dict.mem_put kept.1 with equal | known
    · exact Or.inl equal
    · exact Or.inr ⟨known, kept.2⟩
  · exact Or.inl new

theorem mem_store_self {bound : ℕ} (room : 0 < bound) (dict : Dict κ ν) (key : κ) (value : ν) :
    (key, value) ∈ (store bound dict key value).entries := by
  have concat := moveToEnd_set dict key value
  change _ ∈ dropOldest bound _
  rw [concat]
  exact mem_dropOldest_concat room _ _

theorem store_zero (dict : Dict κ ν) (key : κ) (value : ν) : (store 0 dict key value).entries = [] := by
  apply List.eq_nil_of_length_eq_zero
  change (dropOldest 0 _).length = 0
  rw [length_dropOldest, Nat.zero_min]

theorem get?_moveToEnd (dict : Dict κ ν) (key other : κ) : (moveToEnd dict key).get? other = dict.get? other := by
  unfold moveToEnd
  cases found : dict.get? key with
  | none => rfl
  | some value =>
    rw [Dict.get?_set, Dict.get?_erase]
    by_cases same : key = other
    · rw [if_pos same, ← same, found]
    · rw [if_neg same, if_neg same]

theorem length_le {ν' : Type*} {first : Dict κ ν} {second : Dict κ ν'} (covered : ∀ key, (first.get? key).isSome → (second.get? key).isSome) :
    first.entries.length ≤ second.entries.length := by
  have subset : first.entries.map Prod.fst ⊆ second.entries.map Prod.fst := by
    intro key member
    by_contra absent
    have missing : second.get? key = none := Dict.find_eq_none_iff.2 absent
    have found : (first.get? key).isSome := by
      rw [Option.isSome_iff_ne_none]
      exact fun none_ => Dict.find_eq_none_iff.1 none_ member
    have some_ := covered key found
    rw [missing] at some_
    cases some_
  have shorter := (List.subperm_of_subset first.nodup subset).length_le
  rwa [List.length_map, List.length_map] at shorter

theorem get?_store {bound : ℕ} {dict : Dict κ ν} {key : κ} {value : ν}
    (fits : (moveToEnd (dict.set key value) key).entries.length ≤ bound) (other : κ) :
    (store bound dict key value).get? other = if key = other then some value else dict.get? other := by
  have same : store bound dict key value = moveToEnd (dict.set key value) key := by
    unfold store evict
    simp only [dropOldest_of_le fits]
  rw [same, get?_moveToEnd, Dict.get?_set]

end Callisto.Library.Lru
