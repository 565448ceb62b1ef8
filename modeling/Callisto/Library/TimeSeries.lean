import Mathlib.Data.List.Sort
import Mathlib.Data.List.TakeWhile
import Mathlib.Data.Set.Function

/-! Series of timed values: sorted stably by time, and looked up as of a time. -/

namespace Callisto.Library.TimeSeries

variable {τ α κ : Type}

section Lookup

/-- The number of times before the first that is later; the times ascend. -/
def bisectRight (times : List ℤ) (time : ℤ) : ℕ := (times.takeWhile fun held => held ≤ time).length

def bisectLeft (times : List ℤ) (time : ℤ) : ℕ := (times.takeWhile fun held => held < time).length

def finalize (entries : List (ℤ × τ)) : List (ℤ × τ) := entries.insertionSort fun first second => first.1 ≤ second.1

/-- The newest value that is not later than a time, nor older than the staleness allows. -/
def asOf (entries : List (ℤ × τ)) (time : ℤ) (maxStaleness : Option ℤ) : Option τ :=
  match bisectRight (entries.map Prod.fst) time with
  | 0 => none
  | index + 1 => entries[index]?.bind fun entry =>
    if maxStaleness.any (fun bound => bound < time - entry.1) then none else some entry.2

def iterRange (entries : List (ℤ × τ)) (first last : ℤ) : List (ℤ × τ) :=
  (entries.take (bisectRight (entries.map Prod.fst) last)).drop (bisectLeft (entries.map Prod.fst) first)

variable {entries : List (ℤ × τ)}

theorem finalize_sorted (entries : List (ℤ × τ)) : (finalize entries).Pairwise fun first second => first.1 ≤ second.1 := by
  have total : Std.Total fun first second : ℤ × τ => first.1 ≤ second.1 := ⟨fun first second => le_total first.1 second.1⟩
  have transitive : IsTrans (ℤ × τ) fun first second => first.1 ≤ second.1 := ⟨fun _ _ _ below above => below.trans above⟩
  exact List.pairwise_insertionSort _ entries

theorem finalize_perm (entries : List (ℤ × τ)) : (finalize entries).Perm entries := List.perm_insertionSort _ entries

theorem takeWhile_eq_filter {p : α → Bool} {items : List α} (closed : items.Pairwise fun first second => p second → p first) :
    items.takeWhile p = items.filter p := by
  induction items with
  | nil => rfl
  | cons item rest ih =>
    have ⟨before, later⟩ := List.pairwise_cons.1 closed
    by_cases holds : p item
    · rw [List.takeWhile_cons_of_pos holds, List.filter_cons_of_pos holds, ih later]
    · have none : rest.filter p = [] := List.filter_eq_nil_iff.2 fun other member held => holds (before other member held)
      rw [List.takeWhile_cons_of_neg holds, List.filter_cons_of_neg holds, none]

theorem take_takeWhile_length (p : α → Bool) (items : List α) : items.take (items.takeWhile p).length = items.takeWhile p := by
  have whole := congrArg (List.take (items.takeWhile p).length) (List.takeWhile_append_dropWhile (p := p) (l := items))
  rw [List.take_left] at whole
  exact whole.symm

theorem asOf_eq (sorted : entries.Pairwise fun first second => first.1 ≤ second.1) (time : ℤ) :
    asOf entries time none = ((entries.filter fun entry => entry.1 ≤ time).getLast?).map Prod.snd := by
  have closed : entries.Pairwise fun first second => decide (second.1 ≤ time) → decide (first.1 ≤ time) :=
    sorted.imp fun below late => decide_eq_true (below.trans (of_decide_eq_true late))
  have count : bisectRight (entries.map Prod.fst) time = (entries.takeWhile fun entry => entry.1 ≤ time).length := by
    unfold bisectRight
    rw [List.takeWhile_map, List.length_map]
    rfl
  have taken := take_takeWhile_length (fun entry : ℤ × τ => decide (entry.1 ≤ time)) entries
  unfold asOf
  rw [count, ← takeWhile_eq_filter closed]
  generalize entries.takeWhile (fun entry => decide (entry.1 ≤ time)) = early at taken ⊢
  cases known : early.length with
  | zero =>
    rw [List.length_eq_zero_iff.1 known]
    rfl
  | succ index =>
    rw [known] at taken
    have last : early.getLast? = entries[index]? := by
      rw [List.getLast?_eq_getElem?, known, Nat.add_sub_cancel, ← taken, List.getElem?_take_of_lt (Nat.lt_succ_self index)]
    rw [last]
    dsimp only
    cases entries[index]? <;> rfl

theorem getLast?_orderedInsert {last : ℤ × τ} (entry : ℤ × τ)
    (found : (entries.filter fun held => held.1 ≤ last.1).getLast? = some last) :
    ((entries.orderedInsert (fun first second => first.1 ≤ second.1) entry).filter fun held => held.1 ≤ last.1).getLast? = some last := by
  have put : ∀ (held : ℤ × τ) (rest : List (ℤ × τ)), (rest.filter fun held => held.1 ≤ last.1).getLast? = some last →
      ((held :: rest).filter fun held => held.1 ≤ last.1).getLast? = some last := by
    intro held rest known
    rw [List.filter_cons]
    split_ifs
    · rw [List.getLast?_cons, known, Option.getD_some]
    · exact known
  induction entries with
  | nil => cases found
  | cons held rest ih =>
    rw [List.orderedInsert_cons]
    split_ifs with before
    · exact put entry _ found
    · cases known : (rest.filter fun held => held.1 ≤ last.1).getLast? with
      | none =>
        have later : ∀ other ∈ rest, ¬ decide (other.1 ≤ last.1) = true :=
          List.filter_eq_nil_iff.1 (List.getLast?_eq_none_iff.1 known)
        have none : rest.filter (fun held => held.1 ≤ last.1) = [] := List.getLast?_eq_none_iff.1 known
        rw [List.filter_cons, none] at found
        split_ifs at found with early
        · have same : held = last := Option.some_inj.1 found
          have inserted : (rest.orderedInsert (fun first second => first.1 ≤ second.1) entry).filter (fun other => other.1 ≤ last.1) = [] := by
            refine List.filter_eq_nil_iff.2 fun other member => ?_
            cases (List.mem_orderedInsert _).1 member with
            | inl entered =>
              rw [entered, ← same]
              exact fun below => before (of_decide_eq_true below)
            | inr inside => exact later other inside
          rw [List.filter_cons, if_pos early, inserted, same]
          rfl
        · cases found
      | some newest =>
        have same : newest = last := by
          rw [List.filter_cons] at found
          split_ifs at found
          · rw [List.getLast?_cons, known] at found
            exact Option.some_inj.1 found
          · exact Option.some_inj.1 (known.symm.trans found)
        exact put held _ (ih (same ▸ known))

theorem getLast?_insert {items : List (ℤ × τ)} (sorted : items.Pairwise fun first second => first.1 ≤ second.1) (entry : ℤ × τ) :
    (items.orderedInsert (fun first second => first.1 ≤ second.1) entry).getLast? =
      some (items.getLast?.elim entry fun last => if last.1 < entry.1 then entry else last) := by
  induction items with
  | nil => rfl
  | cons held rest ih =>
    have ⟨first, later⟩ := List.pairwise_cons.1 sorted
    have tail := ih later
    rw [List.orderedInsert_cons]
    split_ifs with before
    · cases known : (held :: rest).getLast? with
      | none => cases List.getLast?_eq_none_iff.1 known
      | some last =>
        have above : held.1 ≤ last.1 := by
          cases List.mem_cons.1 (List.mem_of_getLast? known) with
          | inl same => exact same ▸ le_rfl
          | inr member => exact first last member
        rw [List.getLast?_cons, known, Option.getD_some, Option.elim_some, if_neg (not_lt.2 (before.trans above))]
    · rw [List.getLast?_cons, tail, Option.getD_some, List.getLast?_cons]
      cases rest.getLast? with
      | none => rw [Option.elim_none, Option.getD_none, Option.elim_some, if_pos (not_le.1 before)]
      | some last => rfl

theorem getLast?_finalize_append (first second : List (ℤ × τ)) : (finalize (first ++ second)).getLast? =
    match (finalize first).getLast?, (finalize second).getLast? with
    | known, none => known
    | none, some entry => some entry
    | some held, some entry => if entry.1 < held.1 then some held else some entry := by
  induction first with
  | nil =>
    rw [List.nil_append]
    cases (finalize second).getLast? <;> rfl
  | cons entry rest ih =>
    have whole := getLast?_insert (finalize_sorted (rest ++ second)) entry
    have own := getLast?_insert (finalize_sorted rest) entry
    change (finalize (entry :: (rest ++ second))).getLast? = _ at whole
    change (finalize (entry :: rest)).getLast? = _ at own
    rw [List.cons_append, whole, own, ih]
    cases (finalize second).getLast? with
    | none => cases (finalize rest).getLast? <;> rfl
    | some newer =>
      cases (finalize rest).getLast? with
      | none =>
        by_cases older : newer.1 < entry.1 <;> simp [older]
      | some held =>
        by_cases older : newer.1 < held.1
        · by_cases last : held.1 < entry.1
          · have oldest : newer.1 < entry.1 := older.trans last
            simp [older, last, oldest]
          · simp [older, last]
        · by_cases last : newer.1 < entry.1
          · have below : held.1 < entry.1 := (not_lt.1 older).trans_lt last
            simp [older, last, below]
          · by_cases below : held.1 < entry.1 <;> simp [older, last, below]

theorem filter_finalize (kept : ℤ × τ → Bool) (entries : List (ℤ × τ)) : (finalize entries).filter kept = finalize (entries.filter kept) := by
  have insert : ∀ (entry : ℤ × τ) (items : List (ℤ × τ)), items.Pairwise (fun first second => first.1 ≤ second.1) →
      (items.orderedInsert (fun first second => first.1 ≤ second.1) entry).filter kept =
        if kept entry then (items.filter kept).orderedInsert (fun first second => first.1 ≤ second.1) entry else items.filter kept := by
    intro entry items sorted
    induction items with
    | nil => rw [List.orderedInsert_nil, List.filter_cons, List.filter_nil, List.orderedInsert_nil]
    | cons held rest ih =>
      have ⟨first, later⟩ := List.pairwise_cons.1 sorted
      have tail := ih later
      rw [List.orderedInsert_cons]
      by_cases before : entry.1 ≤ held.1
      · have front : ((held :: rest).filter kept).orderedInsert (fun first second => first.1 ≤ second.1) entry =
            entry :: (held :: rest).filter kept := by
          cases known : (held :: rest).filter kept with
          | nil => rfl
          | cons other others =>
            have inside : other ∈ held :: rest := (List.mem_filter.1 (known ▸ List.mem_cons_self : other ∈ (held :: rest).filter kept)).1
            have above : entry.1 ≤ other.1 := by
              cases List.mem_cons.1 inside with
              | inl same => exact same ▸ before
              | inr member => exact before.trans (first other member)
            rw [List.orderedInsert_cons, if_pos above]
        rw [if_pos before, front, List.filter_cons]
      · rw [if_neg before, List.filter_cons, tail]
        by_cases keeps : kept entry = true
        · by_cases stays : kept held = true
          · rw [if_pos keeps, if_pos keeps, if_pos stays, List.filter_cons_of_pos stays, List.orderedInsert_cons, if_neg before]
          · rw [if_pos keeps, if_pos keeps, if_neg stays, List.filter_cons_of_neg stays]
        · rw [if_neg keeps, if_neg keeps, List.filter_cons]
  induction entries with
  | nil => rfl
  | cons entry rest ih =>
    have step := insert entry (finalize rest) (finalize_sorted rest)
    change (finalize (entry :: rest)).filter kept = _ at step
    rw [step, ih, List.filter_cons]
    split_ifs <;> rfl

theorem asOf_latest (entries : List (ℤ × τ)) {first second : ℤ × τ} (same : first.1 = second.1) :
    asOf (finalize (entries ++ [first, second])) second.1 none = some second.2 := by
  have last : ((finalize (entries ++ [first, second])).filter fun entry => entry.1 ≤ second.1).getLast? = some second := by
    induction entries with
    | nil =>
      have sorted : ([first, second] : List (ℤ × τ)).Pairwise fun one other => one.1 ≤ other.1 := by
        rw [List.pairwise_pair]
        exact same.le
      have fixed : finalize ([] ++ [first, second]) = [first, second] := sorted.insertionSort_eq
      rw [fixed]
      simp [same]
    | cons entry rest ih => exact getLast?_orderedInsert entry ih
  rw [asOf_eq (finalize_sorted _), last]
  rfl

theorem iterRange_eq {first last : ℤ} (inside : ∀ entry ∈ entries, first ≤ entry.1 ∧ entry.1 ≤ last) : iterRange entries first last = entries := by
  have all : (entries.map Prod.fst).takeWhile (fun held => held ≤ last) = entries.map Prod.fst := by
    rw [List.takeWhile_eq_self_iff]
    intro time member
    have ⟨entry, held, same⟩ := List.mem_map.1 member
    exact decide_eq_true (same ▸ (inside entry held).2)
  have none : (entries.map Prod.fst).takeWhile (fun held => held < first) = [] := by
    cases known : entries with
    | nil => rfl
    | cons entry rest =>
      have bounds := inside entry (known ▸ List.mem_cons_self)
      exact List.takeWhile_cons_of_neg (by simpa using bounds.1)
  unfold iterRange bisectRight bisectLeft
  rw [all, none, List.length_map, List.take_length, List.length_nil, List.drop_zero]

end Lookup

theorem sorted_unique [PartialOrder κ] {key : α → κ} {first second : List α} (same : first.Perm second)
    (single : Set.InjOn key {item | item ∈ first}) (ordered : first.Pairwise fun one other => key one ≤ key other)
    (other : second.Pairwise fun one other => key one ≤ key other) : first = second := by
  refine same.eq_of_pairwise (fun one two here there below above => ?_) ordered other
  exact single here (same.mem_iff.2 there) (le_antisymm below above)

end Callisto.Library.TimeSeries
