import Mathlib.Algebra.BigOperators.Group.List.Basic
import Mathlib.Algebra.GroupWithZero.Nat
import Callisto.Library.Heap
import Callisto.Library.StableSort

/-! The two ordered merges. Both keep one entry of each live source in a heap and refill it behind what they yield; of sorted sources
they yield the stable sort. -/

namespace Callisto.MarketData

open Callisto.Library
open scoped List

variable {α κ : Type}

structure HeapEntry (α κ : Type) where
  key : κ
  index : ℕ
  value : α
  iterator : List α

/-- The order of the entries as tuples; no two have one index, so it never comes to the values. -/
def HeapEntry.rank (entry : HeapEntry α κ) : κ ×ₗ ℕ := toLex (entry.key, entry.index)

def HeapEntry.weight (entry : HeapEntry α κ) : ℕ := entry.iterator.length + 1

/-- `__anext__` of the iterator of a source, and its entry. -/
def nextEntry (key : α → κ) (index : ℕ) : List α → Option (HeapEntry α κ)
  | [] => none
  | value :: iterator => some ⟨key value, index, value, iterator⟩

/-- The heap behind what an entry yields: its source is advanced and takes its place again, unless it stops. -/
def refill (key : α → κ) (entry : HeapEntry α κ) (heap : List (HeapEntry α κ)) : List (HeapEntry α κ) :=
  (nextEntry key entry.index entry.iterator).toList ++ heap

def prime (key : α → κ) (sources : List (List α)) : List (HeapEntry α κ) :=
  sources.zipIdx.filterMap fun source => nextEntry key source.2 source.1

def liveEntries (key : α → κ) (streams : List (ℕ × List α)) : List (HeapEntry α κ) :=
  streams.filterMap fun stream => nextEntry key stream.1 stream.2

variable {key : α → κ} {streams : List (ℕ × List α)}

variable {entry : HeapEntry α κ}

theorem nextEntry_own (keyed : entry.key = key entry.value) :
    nextEntry key entry.index (entry.value :: entry.iterator) = some entry := by
  obtain ⟨held, index, value, iterator⟩ := entry
  have same : held = key value := keyed
  rw [same]
  rfl

theorem mem_liveEntries :
    entry ∈ liveEntries key streams ↔ entry.key = key entry.value ∧ (entry.index, entry.value :: entry.iterator) ∈ streams := by
  unfold liveEntries
  rw [List.mem_filterMap]
  constructor
  · intro found
    obtain ⟨⟨index, items⟩, member, same⟩ := found
    cases items with
    | nil => cases same
    | cons value iterator =>
      cases same
      exact ⟨rfl, member⟩
  · intro found
    exact ⟨_, found.2, nextEntry_own found.1⟩

theorem liveEntries_advance (apart : (streams.map Prod.fst).Nodup) (keyed : entry.key = key entry.value)
    (taken : (entry.index, entry.value :: entry.iterator) ∈ streams) :
    (entry :: liveEntries key (advance entry.index streams)) ~ refill key entry (liveEntries key streams) := by
  induction streams with
  | nil => cases taken
  | cons stream others ih =>
    obtain ⟨fresh, apart⟩ := List.nodup_cons.1 (List.map_cons ▸ apart)
    by_cases same : stream.1 = entry.index
    · have absent : ∀ other ∈ others, other.1 ≠ entry.index := fun other member named =>
        fresh (List.mem_map.2 ⟨other, member, named.trans same.symm⟩)
      have known : stream = (entry.index, entry.value :: entry.iterator) := by
        cases List.mem_cons.1 taken with
        | inl known => exact known.symm
        | inr later => exact absurd rfl (absent _ later)
      have still : advance entry.index others = others := by
        unfold advance
        exact (List.map_congr_left fun other member => if_neg (absent other member)).trans (List.map_id' _)
      have moved : advance entry.index (stream :: others) = (entry.index, entry.iterator) :: others := by
        subst known
        exact congrArg₂ List.cons (if_pos rfl) still
      have before : liveEntries key (stream :: others) = entry :: liveEntries key others := by
        rw [known]
        exact List.filterMap_cons_some (nextEntry_own keyed)
      have after : liveEntries key ((entry.index, entry.iterator) :: others) =
          (nextEntry key entry.index entry.iterator).toList ++ liveEntries key others := by
        unfold liveEntries
        rw [List.filterMap_cons]
        cases nextEntry key entry.index entry.iterator <;> rfl
      rw [moved, before, after, refill]
      exact List.perm_middle.symm
    · have later : (entry.index, entry.value :: entry.iterator) ∈ others := by
        cases List.mem_cons.1 taken with
        | inl known => exact absurd (congrArg Prod.fst known).symm same
        | inr later => exact later
      have moved : advance entry.index (stream :: others) = stream :: advance entry.index others := by simp [advance, same]
      have split : ∀ rest, liveEntries key (stream :: rest) = (nextEntry key stream.1 stream.2).toList ++ liveEntries key rest := by
        intro rest
        unfold liveEntries
        rw [List.filterMap_cons]
        cases nextEntry key stream.1 stream.2 <;> rfl
      rw [moved, split, split, refill]
      refine List.perm_middle.symm.trans (((ih apart later).append_left _).trans ?_)
      exact List.perm_append_comm_assoc _ _ _

variable [LinearOrder κ]

theorem refill_weight {heap rest : List (HeapEntry α κ)}
    (popped : heappop HeapEntry.rank heap = some (entry, rest)) :
    ((refill key entry rest).map HeapEntry.weight).sum < (heap.map HeapEntry.weight).sum := by
  rw [((heappop_perm popped).map HeapEntry.weight).sum_eq]
  unfold refill HeapEntry.weight
  cases known : entry.iterator with
  | nil => simp [nextEntry]
  | cons value iterator =>
    simp only [nextEntry, Option.toList_some, List.singleton_append, List.map_cons, List.sum_cons, known, List.length_cons]
    omega

/-- The loop of `aordered_merge`. -/
def yieldLeast (key : α → κ) (heap : List (HeapEntry α κ)) : List α :=
  match _ : heappop HeapEntry.rank heap with
  | none => []
  | some (entry, rest) => entry.value :: yieldLeast key (refill key entry rest)
termination_by (heap.map HeapEntry.weight).sum
decreasing_by exact refill_weight ‹_›

def aorderedMerge (key : α → κ) (sources : List (List α)) : List α := yieldLeast key (prime key sources)

/-- The loop of `heapq.merge`: a source that is left alone is yielded without the heap. -/
def heapqMerge (key : α → κ) (heap : List (HeapEntry α κ)) : List α :=
  match _ : heappop HeapEntry.rank heap with
  | none => []
  | some (entry, []) => entry.value :: entry.iterator
  | some (entry, other :: others) => entry.value :: heapqMerge key (refill key entry (other :: others))
termination_by (heap.map HeapEntry.weight).sum
decreasing_by exact refill_weight ‹_›

def orderedMerge (key : α → κ) (sources : List (List α)) : List α := heapqMerge key (prime key sources)

theorem yieldLeast_none {heap : List (HeapEntry α κ)} (popped : heappop HeapEntry.rank heap = none) :
    yieldLeast key heap = [] := by
  rw [heappop_eq_none.1 popped, yieldLeast]
  rfl

theorem yieldLeast_some {heap rest : List (HeapEntry α κ)}
    (popped : heappop HeapEntry.rank heap = some (entry, rest)) :
    yieldLeast key heap = entry.value :: yieldLeast key (refill key entry rest) := by
  rw [yieldLeast]
  split
  · next none => rw [popped] at none; cases none
  · next other others same =>
    rw [popped] at same
    cases same
    rfl

theorem yieldLeast_single (key : α → κ) (entry : HeapEntry α κ) : yieldLeast key [entry] = entry.value :: entry.iterator := by
  have alone : ∀ entry : HeapEntry α κ, yieldLeast key [entry] = entry.value :: yieldLeast key (refill key entry []) :=
    fun entry => yieldLeast_some rfl
  rw [alone]
  congr 1
  generalize known : entry.iterator = iterator
  induction iterator generalizing entry with
  | nil =>
    rw [refill, known]
    exact yieldLeast_none rfl
  | cons value iterator ih =>
    rw [refill, known]
    change yieldLeast key [⟨key value, entry.index, value, iterator⟩] = _
    rw [alone]
    exact congrArg (value :: ·) (ih _ rfl)

theorem heapqMerge_eq (key : α → κ) (heap : List (HeapEntry α κ)) : heapqMerge key heap = yieldLeast key heap := by
  fun_induction heapqMerge key heap with
  | case1 heap popped => rw [yieldLeast_none popped]
  | case2 heap entry popped =>
    have single : heap.Perm [entry] := heappop_perm popped
    rw [List.perm_singleton.1 single, yieldLeast_single]
  | case3 heap entry other others popped ih => rw [yieldLeast_some popped, ih]

theorem yieldLeast_eq (apart : (streams.map Prod.fst).Nodup) {steps : ℕ} (enough : (content streams).length ≤ steps)
    {heap : List (HeapEntry α κ)} (live : heap ~ liveEntries key streams) :
    yieldLeast key heap = (mergeSteps key steps streams).map Prod.snd := by
  have exhausted : ∀ {streams : List (ℕ × List α)}, content streams = [] → liveEntries key streams = [] := by
    intro streams empty
    refine List.eq_nil_iff_forall_not_mem.2 fun entry member => ?_
    have none := List.flatMap_eq_nil_iff.1 empty _ (mem_liveEntries.1 member).2
    cases none
  induction steps generalizing streams heap with
  | zero =>
    rw [exhausted (List.length_eq_zero_iff.1 (Nat.le_zero.1 enough))] at live
    rw [List.perm_nil.1 live]
    exact yieldLeast_none rfl
  | succ steps ih =>
    obtain ⟨empty, done⟩ | ⟨head, rest, taken, least, done⟩ := mergeSteps_cases key steps streams
    · rw [exhausted empty] at live
      rw [List.perm_nil.1 live, done]
      exact yieldLeast_none rfl
    · have there : (⟨key head.2, head.1, head.2, rest⟩ : HeapEntry α κ) ∈ heap := live.mem_iff.2 (mem_liveEntries.2 ⟨rfl, taken⟩)
      cases popped : heappop HeapEntry.rank heap with
      | none =>
        rw [heappop_eq_none.1 popped] at there
        cases there
      | some both =>
        obtain ⟨entry, others⟩ := both
        have split : heap ~ entry :: others := heappop_perm popped
        obtain ⟨keyed, held⟩ := mem_liveEntries.1 (live.mem_iff.1 (split.mem_iff.2 List.mem_cons_self))
        -- the entry popped and the head merged have each the least rank, so they are of one stream
        have below : entry.rank ≤ rank key head := heappop_least popped there
        have above : rank key head ≤ rank key (entry.index, entry.value) := least _ (mem_heads.2 ⟨entry.iterator, held⟩)
        have ranked : rank key (entry.index, entry.value) = entry.rank := by
          unfold rank HeapEntry.rank
          rw [keyed]
        have same : entry.index = head.1 := by
          have tie : entry.rank = rank key head := le_antisymm below (ranked ▸ above)
          exact congrArg (fun pair => (ofLex pair).2) tie
        have stream : (entry.index, entry.value :: entry.iterator) = (head.1, head.2 :: rest) :=
          List.inj_on_of_nodup_map apart held taken same
        have value : entry.value = head.2 := (List.cons.inj (Prod.mk.inj stream).2).1
        have shorter := content_advance apart taken
        have left : (content (advance head.1 streams)).length ≤ steps := by
          have lengths := shorter.length_eq
          rw [List.length_cons] at lengths
          omega
        have refilled : refill key entry others ~ liveEntries key (advance head.1 streams) := by
          have moved := liveEntries_advance apart keyed held
          have whole : refill key entry (liveEntries key streams) ~ entry :: refill key entry others := by
            unfold refill
            exact ((live.symm.trans split).append_left _).trans List.perm_middle
          rw [same] at moved
          exact (moved.trans whole).cons_inv.symm
        rw [yieldLeast_some popped, done, List.map_cons, value]
        exact congrArg (head.2 :: ·) (ih (by rw [names_advance]; exact apart) left refilled)

theorem aorderedMerge_eq (key : α → κ) (sources : List (List α)) :
    aorderedMerge key sources = (mergeStreams key (sources.zipIdx.map Prod.swap)).map Prod.snd := by
  refine yieldLeast_eq (indexed_nodup sources) le_rfl ?_
  unfold prime liveEntries
  rw [List.filterMap_map]
  exact .refl _

theorem orderedMerge_eq (key : α → κ) (sources : List (List α)) :
    orderedMerge key sources = (mergeStreams key (sources.zipIdx.map Prod.swap)).map Prod.snd :=
  (heapqMerge_eq key _).trans (aorderedMerge_eq key sources)

structure SortedStream (key : α → κ) where
  items : List α
  ascending : items.Pairwise fun first second => key first ≤ key second

/-- The merge of some streams is the stable sort of them, one after the other: all their items, no other, and of equal keys first
those of the earlier stream. -/
structure MergesStably (key : α → κ) (streams : List (List α)) : Prop where
  stable : aorderedMerge key streams = sortedBy key streams.flatten
  complete : aorderedMerge key streams ~ streams.flatten
  same : aorderedMerge key streams = orderedMerge key streams

theorem aorderedMerge_stable (key : α → κ) (streams : List (SortedStream key)) : MergesStably key (streams.map SortedStream.items) := by
  have names : (((streams.map SortedStream.items).zipIdx.map Prod.swap).map Prod.fst).Pairwise fun one other => one < other := by
    rw [List.map_map]
    change ((streams.map SortedStream.items).zipIdx.map Prod.snd).Pairwise _
    rw [List.zipIdx_map_snd]
    exact List.pairwise_lt_range'
  have sorted : ∀ stream ∈ (streams.map SortedStream.items).zipIdx.map Prod.swap,
      stream.2.Pairwise fun one other => key one ≤ key other := by
    intro stream member
    obtain ⟨⟨items, index⟩, held, rfl⟩ := List.mem_map.1 member
    obtain ⟨source, -, rfl⟩ := List.mem_map.1 (List.fst_mem_of_mem_zipIdx held)
    exact source.ascending
  constructor
  case stable => rw [aorderedMerge_eq, mergeStreams_stable key names sorted, indexed_content]
  case complete =>
    rw [aorderedMerge_eq, ← indexed_content]
    exact mergeStreams_perm key (indexed_nodup _)
  case same => exact (heapqMerge_eq key _).symm

/-- Two streams tie with each other, one ties with itself, and one between them is empty. -/
def tiedStreams : List (SortedStream (Prod.fst : ℕ × String → ℕ)) :=
  [⟨[(1, "a"), (1, "b"), (3, "c")], by decide⟩, ⟨[], List.Pairwise.nil⟩, ⟨[(1, "d"), (2, "e"), (3, "f")], by decide⟩]

theorem aorderedMerge_stable_tied : MergesStably Prod.fst (tiedStreams.map SortedStream.items) :=
  aorderedMerge_stable Prod.fst tiedStreams

end Callisto.MarketData
