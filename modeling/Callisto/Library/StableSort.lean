import Callisto.Library.Merge
import Callisto.Library.Traversals

/-! A list that is sorted by a key is known once what stands at each key is known. A stable sort changes nothing there, and neither
does the merge of streams that are sorted and named in ascending order. -/

namespace Callisto.Library

variable {ι α κ : Type} [LinearOrder κ]

theorem filter_key_cons {key : α → κ} {value : κ} {item : α} (here : key item = value) (items : List α) :
    (item :: items).filter (fun other => key other = value) = item :: items.filter fun other => key other = value :=
  List.filter_cons_of_pos (decide_eq_true here)

theorem filter_key_skip {key : α → κ} {value : κ} {item : α} (elsewhere : key item ≠ value) (items : List α) :
    (item :: items).filter (fun other => key other = value) = items.filter fun other => key other = value :=
  List.filter_cons_of_neg (by simpa using elsewhere)

theorem eq_of_sorted_filters (key : α → κ) {first second : List α} (one : first.Pairwise fun a b => key a ≤ key b)
    (other : second.Pairwise fun a b => key a ≤ key b)
    (same : ∀ value, first.filter (fun item => key item = value) = second.filter fun item => key item = value) : first = second := by
  induction first generalizing second with
  | nil =>
    refine (List.eq_nil_iff_forall_not_mem.2 fun item member => ?_).symm
    have held : item ∈ second.filter fun other => key other = key item := List.mem_filter.2 ⟨member, decide_eq_true rfl⟩
    rw [← same] at held
    cases held
  | cons head tail ih =>
    have ⟨least, sorted⟩ := List.pairwise_cons.1 one
    cases second with
    | nil =>
      have none := same (key head)
      rw [filter_key_cons rfl] at none
      cases none
    | cons item rest =>
      have ⟨lowest, ordered⟩ := List.pairwise_cons.1 other
      -- each head stands in the other list, so neither key is the smaller one
      have below : key head ≤ key item := by
        have held : item ∈ (head :: tail).filter fun other => key other = key item := by
          rw [same]
          exact List.mem_filter.2 ⟨List.mem_cons_self, decide_eq_true rfl⟩
        cases List.mem_cons.1 (List.mem_filter.1 held).1 with
        | inl equal => rw [equal]
        | inr later => exact least item later
      have above : key item ≤ key head := by
        have held : head ∈ (item :: rest).filter fun other => key other = key head := by
          rw [← same]
          exact List.mem_filter.2 ⟨List.mem_cons_self, decide_eq_true rfl⟩
        cases List.mem_cons.1 (List.mem_filter.1 held).1 with
        | inl equal => rw [equal]
        | inr later => exact lowest head later
      have tie : key item = key head := le_antisymm above below
      have heads := same (key head)
      rw [filter_key_cons rfl, filter_key_cons tie] at heads
      have equal : head = item := (List.cons.inj heads).1
      subst equal
      refine congrArg (head :: ·) (ih sorted ordered fun value => ?_)
      have now := same value
      by_cases here : key head = value
      · rw [filter_key_cons here, filter_key_cons here] at now
        exact (List.cons.inj now).2
      · rw [filter_key_skip here, filter_key_skip here] at now
        exact now

def sortedBy (key : α → κ) (items : List α) : List α := items.mergeSort fun first second => key first ≤ key second

theorem filter_sortedBy (key : α → κ) (items : List α) (value : κ) :
    (sortedBy key items).filter (fun item => key item = value) = items.filter fun item => key item = value := by
  have level : (items.filter fun item => key item = value).Pairwise fun first second => decide (key first ≤ key second) = true := by
    refine List.pairwise_of_forall_mem_list fun first here second there => decide_eq_true ?_
    exact ((of_decide_eq_true (List.mem_filter.1 here).2).trans (of_decide_eq_true (List.mem_filter.1 there).2).symm).le
  have kept := List.sublist_mergeSort (fun _ _ _ below above => decide_eq_true ((of_decide_eq_true below).trans (of_decide_eq_true above)))
    (fun first second => by
      rw [Bool.or_eq_true, decide_eq_true_iff, decide_eq_true_iff]
      exact le_total _ _) level (List.filter_sublist (l := items))
  have inside := kept.filter fun item => decide (key item = value)
  rw [List.filter_filter] at inside
  simp only [Bool.and_self] at inside
  have size := ((List.mergeSort_perm items fun first second => key first ≤ key second).filter fun item => decide (key item = value)).length_eq
  exact (inside.eq_of_length size.symm).symm

def tagged (streams : List (ι × List α)) : List (ι × α) := streams.flatMap fun stream => stream.2.map fun item => (stream.1, item)

variable {streams : List (ι × List α)}

theorem tagged_items (streams : List (ι × List α)) : (tagged streams).map Prod.snd = content streams := by
  unfold tagged content
  rw [List.map_flatMap]
  refine List.flatMap_congr fun stream _ => ?_
  rw [List.map_map]
  exact List.map_id stream.2

variable [LinearOrder ι]

theorem tagged_stream (apart : (streams.map Prod.fst).Nodup) {stream : ι × List α} (member : stream ∈ streams) :
    (tagged streams).filter (fun entry => entry.1 = stream.1) = stream.2.map fun item => (stream.1, item) := by
  have own : ∀ other : ι × List α, ((other.2.map fun item => (other.1, item)).filter fun entry => entry.1 = stream.1) =
      if other.1 = stream.1 then other.2.map (fun item => (other.1, item)) else [] := by
    intro other
    rw [List.filter_map]
    by_cases same : other.1 = stream.1
    · rw [if_pos same]
      exact congrArg (List.map _) (List.filter_eq_self.2 fun item _ => decide_eq_true same)
    · rw [if_neg same]
      exact congrArg (List.map _) (List.filter_eq_nil_iff.2 fun item _ => by simpa using same)
  induction streams with
  | nil => cases member
  | cons first rest ih =>
    obtain ⟨fresh, apart⟩ := List.nodup_cons.1 (List.map_cons ▸ apart)
    change (((first.2.map fun item => (first.1, item)) ++ tagged rest).filter fun entry => entry.1 = stream.1) = _
    rw [List.filter_append, own]
    cases List.mem_cons.1 member with
    | inl same =>
      subst same
      have none : (tagged rest).filter (fun entry => entry.1 = stream.1) = [] := by
        refine List.filter_eq_nil_iff.2 fun entry held named => fresh ?_
        obtain ⟨other, there, inside⟩ := List.mem_flatMap.1 held
        obtain ⟨item, -, rfl⟩ := List.mem_map.1 inside
        exact List.mem_map.2 ⟨other, there, of_decide_eq_true named⟩
      rw [if_pos rfl, none, List.append_nil]
    | inr later =>
      have other : first.1 ≠ stream.1 := fun same => fresh (List.mem_map.2 ⟨stream, later, same.symm⟩)
      rw [if_neg other, List.nil_append]
      exact ih apart later

theorem tagged_absent {name : ι} (absent : name ∉ streams.map Prod.fst) : (tagged streams).filter (fun entry => entry.1 = name) = [] := by
  refine List.filter_eq_nil_iff.2 fun entry held named => absent ?_
  obtain ⟨stream, member, inside⟩ := List.mem_flatMap.1 held
  obtain ⟨item, -, rfl⟩ := List.mem_map.1 inside
  exact List.mem_map.2 ⟨stream, member, of_decide_eq_true named⟩

theorem tagged_ascending (names : (streams.map Prod.fst).Pairwise fun one other => one < other) :
    (tagged streams).Pairwise fun one other => one.1 ≤ other.1 := by
  refine List.pairwise_flatMap.2 ⟨fun stream _ => ?_, ?_⟩
  · rw [List.pairwise_map]
    exact List.pairwise_of_forall fun _ _ => le_rfl
  · refine (List.pairwise_map.1 names).imp fun {first second} below one here other there => ?_
    obtain ⟨item, -, rfl⟩ := List.mem_map.1 here
    obtain ⟨other, -, rfl⟩ := List.mem_map.1 there
    exact below.le

theorem mergeStreams_level (key : α → κ) (names : (streams.map Prod.fst).Pairwise fun one other => one < other)
    (sorted : ∀ stream ∈ streams, stream.2.Pairwise fun one other => key one ≤ key other) (value : κ) :
    (mergeStreams key streams).filter (fun entry => key entry.2 = value) = (tagged streams).filter fun entry => key entry.2 = value := by
  have apart : (streams.map Prod.fst).Nodup := names.imp fun below => below.ne
  refine eq_of_sorted_filters Prod.fst ?_ ((tagged_ascending names).filter _) fun name => ?_
  · refine ((mergeStreams_ranked apart sorted).filter _).imp_of_mem fun {one other} here there below => ?_
    have tie : key one.2 = key other.2 := (of_decide_eq_true (List.mem_filter.1 here).2).trans
      (of_decide_eq_true (List.mem_filter.1 there).2).symm
    cases Prod.Lex.toLex_le_toLex.1 below with
    | inl less => exact absurd tie less.ne
    | inr equal => exact equal.2
  · have streamed : (mergeStreams key streams).filter (fun entry => entry.1 = name) = (tagged streams).filter fun entry => entry.1 = name := by
      by_cases known : name ∈ streams.map Prod.fst
      · obtain ⟨stream, member, rfl⟩ := List.mem_map.1 known
        rw [mergeStreams_stream key apart member, tagged_stream apart member]
      · have none : (mergeStreams key streams).filter (fun entry => entry.1 = name) = [] := by
          refine List.filter_eq_nil_iff.2 fun entry held named => known ?_
          obtain ⟨stream, member, same, -⟩ := mem_mergeSteps apart held
          exact List.mem_map.2 ⟨stream, member, same.trans (of_decide_eq_true named)⟩
        rw [none, tagged_absent known]
    rw [List.filter_comm, streamed, List.filter_comm]

theorem mergeStreams_stable (key : α → κ) (names : (streams.map Prod.fst).Pairwise fun one other => one < other)
    (sorted : ∀ stream ∈ streams, stream.2.Pairwise fun one other => key one ≤ key other) :
    (mergeStreams key streams).map Prod.snd = sortedBy key (content streams) := by
  have apart : (streams.map Prod.fst).Nodup := names.imp fun below => below.ne
  refine eq_of_sorted_filters key ((mergeStreams_sorted_iff (fun _ _ below => below) apart).2 sorted) (pairwise_sortedBy key _) fun value => ?_
  rw [filter_sortedBy, ← tagged_items, List.filter_map, List.filter_map]
  exact congrArg (List.map Prod.snd) (mergeStreams_level key names sorted value)

end Callisto.Library
