import Mathlib.Data.List.MinMax
import Mathlib.Data.List.Nodup
import Mathlib.Data.List.Perm.Basic
import Mathlib.Data.Prod.Lex

/-! Streams with a name each, merged by a heap of their heads: the least head comes next, and of equal heads that of the least
name. -/

namespace Callisto.Library

variable {ι α κ : Type}

def heads (streams : List (ι × List α)) : List (ι × α) := streams.filterMap fun stream => stream.2.head?.map fun item => (stream.1, item)

variable {streams : List (ι × List α)}

theorem mem_heads {entry : ι × α} : entry ∈ heads streams ↔ ∃ rest, (entry.1, entry.2 :: rest) ∈ streams := by
  unfold heads
  rw [List.mem_filterMap]
  constructor
  · intro found
    obtain ⟨⟨name, stream⟩, member, same⟩ := found
    cases stream with
    | nil => cases same
    | cons item rest =>
      cases same
      exact ⟨rest, member⟩
  · intro found
    obtain ⟨rest, member⟩ := found
    exact ⟨_, member, rfl⟩

variable [LinearOrder ι] [LinearOrder κ]

def advance (name : ι) (streams : List (ι × List α)) : List (ι × List α) :=
  streams.map fun stream => if stream.1 = name then (stream.1, stream.2.tail) else stream

def rank (key : α → κ) (entry : ι × α) : κ ×ₗ ι := toLex (key entry.2, entry.1)

def mergeSteps (key : α → κ) : ℕ → List (ι × List α) → List (ι × α)
  | 0, _ => []
  | steps + 1, streams =>
    match (heads streams).argmin (rank key) with
    | none => []
    | some entry => entry :: mergeSteps key steps (advance entry.1 streams)

def content (streams : List (ι × List α)) : List α := streams.flatMap Prod.snd

def mergeStreams (key : α → κ) (streams : List (ι × List α)) : List (ι × α) := mergeSteps key (content streams).length streams

variable {key : α → κ} {name : ι} {item : α} {rest : List α} {stream : ι × List α}

theorem names_advance (name : ι) (streams : List (ι × List α)) : (advance name streams).map Prod.fst = streams.map Prod.fst := by
  unfold advance
  rw [List.map_map]
  refine List.map_congr_left fun stream _ => ?_
  by_cases same : stream.1 = name
  · simp [same]
  · simp [same]

theorem mem_advance (apart : (streams.map Prod.fst).Nodup) (taken : (name, item :: rest) ∈ streams) :
    stream ∈ advance name streams ↔ stream = (name, rest) ∨ (stream ∈ streams ∧ stream.1 ≠ name) := by
  unfold advance
  rw [List.mem_map]
  constructor
  · intro found
    obtain ⟨before, member, rfl⟩ := found
    by_cases same : before.1 = name
    · have known : before = (name, item :: rest) := List.inj_on_of_nodup_map apart member taken same
      rw [if_pos same, known]
      exact .inl rfl
    · rw [if_neg same]
      exact .inr ⟨member, same⟩
  · intro found
    cases found with
    | inl same => exact ⟨_, taken, by rw [if_pos rfl, same]; rfl⟩
    | inr other => exact ⟨stream, other.1, if_neg other.2⟩

theorem content_advance (apart : (streams.map Prod.fst).Nodup) (taken : (name, item :: rest) ∈ streams) :
    (item :: content (advance name streams)).Perm (content streams) := by
  induction streams with
  | nil => cases taken
  | cons stream others ih =>
    obtain ⟨fresh, apart⟩ := List.nodup_cons.1 (List.map_cons ▸ apart)
    by_cases same : stream.1 = name
    · have absent : ∀ other ∈ others, other.1 ≠ name := fun other member named =>
        fresh (List.mem_map.2 ⟨other, member, named.trans same.symm⟩)
      have known : stream = (name, item :: rest) := by
        cases List.mem_cons.1 taken with
        | inl known => exact known.symm
        | inr later => exact absurd rfl (absent _ later)
      have still : advance name others = others := by
        unfold advance
        exact (List.map_congr_left fun other member => if_neg (absent other member)).trans (List.map_id' _)
      have moved : advance name (stream :: others) = (name, rest) :: others := by
        subst known
        exact congrArg₂ List.cons (if_pos rfl) still
      rw [moved, known]
      exact .refl _
    · have later : (name, item :: rest) ∈ others := by
        cases List.mem_cons.1 taken with
        | inl known => exact absurd (congrArg Prod.fst known).symm same
        | inr later => exact later
      have moved : advance name (stream :: others) = stream :: advance name others := by simp [advance, same]
      rw [moved]
      change (item :: (stream.2 ++ content (advance name others))).Perm (stream.2 ++ content others)
      exact List.perm_middle.symm.trans ((ih apart later).append_left stream.2)

theorem mergeSteps_cases (key : α → κ) (steps : ℕ) (streams : List (ι × List α)) :
    (content streams = [] ∧ mergeSteps key (steps + 1) streams = []) ∨
    ∃ entry rest, (entry.1, entry.2 :: rest) ∈ streams ∧ (∀ other ∈ heads streams, rank key entry ≤ rank key other) ∧
      mergeSteps key (steps + 1) streams = entry :: mergeSteps key steps (advance entry.1 streams) := by
  cases least : (heads streams).argmin (rank key) with
  | none =>
    have none : heads streams = [] := List.argmin_eq_none.1 least
    refine .inl ⟨?_, by rw [mergeSteps, least]⟩
    refine List.flatMap_eq_nil_iff.2 fun stream member => ?_
    cases held : stream.2 with
    | nil => rfl
    | cons item rest =>
      have head : (stream.1, item) ∈ heads streams := mem_heads.2 ⟨rest, by rw [← held]; exact member⟩
      rw [none] at head
      cases head
  | some entry =>
    obtain ⟨rest, taken⟩ := mem_heads.1 (List.argmin_mem least)
    refine .inr ⟨entry, rest, taken, fun other member => List.le_of_mem_argmin member least, by rw [mergeSteps, least]⟩

theorem mergeSteps_perm (apart : (streams.map Prod.fst).Nodup) {steps : ℕ} (enough : (content streams).length ≤ steps) :
    ((mergeSteps key steps streams).map Prod.snd).Perm (content streams) := by
  induction steps generalizing streams with
  | zero =>
    rw [List.length_eq_zero_iff.1 (Nat.le_zero.1 enough)]
    exact .refl _
  | succ steps ih =>
    obtain ⟨empty, done⟩ | ⟨entry, rest, taken, -, done⟩ := mergeSteps_cases key steps streams
    · rw [empty, done]
      exact .refl _
    · have shorter := content_advance apart taken
      have left : (content (advance entry.1 streams)).length ≤ steps := by
        have lengths := shorter.length_eq
        rw [List.length_cons] at lengths
        omega
      have later := ih (by rw [names_advance]; exact apart) left
      rw [done]
      exact (later.cons entry.2).trans shorter

theorem mergeSteps_stream (apart : (streams.map Prod.fst).Nodup) {steps : ℕ} (enough : (content streams).length ≤ steps)
    (member : stream ∈ streams) :
    (mergeSteps key steps streams).filter (fun entry => entry.1 = stream.1) = stream.2.map fun item => (stream.1, item) := by
  induction steps generalizing streams stream with
  | zero =>
    have none := List.length_eq_zero_iff.1 (Nat.le_zero.1 enough)
    rw [List.flatMap_eq_nil_iff.1 none stream member]
    rfl
  | succ steps ih =>
    obtain ⟨empty, done⟩ | ⟨entry, rest, taken, -, done⟩ := mergeSteps_cases key steps streams
    · rw [List.flatMap_eq_nil_iff.1 empty stream member, done]
      rfl
    · have left : (content (advance entry.1 streams)).length ≤ steps := by
        have lengths := (content_advance apart taken).length_eq
        rw [List.length_cons] at lengths
        omega
      have named : ((advance entry.1 streams).map Prod.fst).Nodup := by rw [names_advance]; exact apart
      rw [done]
      by_cases same : entry.1 = stream.1
      · have known : stream = (entry.1, entry.2 :: rest) := List.inj_on_of_nodup_map apart member taken same.symm
        have later := ih named left ((mem_advance apart taken).2 (.inl rfl))
        rw [known, List.filter_cons_of_pos (by simp), List.map_cons]
        exact congrArg (entry :: ·) later
      · have later := ih named left ((mem_advance apart taken).2 (.inr ⟨member, Ne.symm same⟩))
        rw [List.filter_cons_of_neg (by simpa using same), later]

theorem mem_mergeSteps {steps : ℕ} {entry : ι × α} (apart : (streams.map Prod.fst).Nodup)
    (member : entry ∈ mergeSteps key steps streams) : ∃ stream ∈ streams, stream.1 = entry.1 ∧ entry.2 ∈ stream.2 := by
  induction steps generalizing streams with
  | zero => cases member
  | succ steps ih =>
    obtain ⟨-, done⟩ | ⟨first, rest, taken, -, done⟩ := mergeSteps_cases key steps streams
    · rw [done] at member
      cases member
    · rw [done] at member
      cases List.mem_cons.1 member with
      | inl same =>
        subst same
        exact ⟨_, taken, rfl, List.mem_cons_self⟩
      | inr later =>
        obtain ⟨stream, there, named, held⟩ := ih (by rw [names_advance]; exact apart) later
        cases (mem_advance apart taken).1 there with
        | inl same =>
          subst same
          exact ⟨_, taken, named, List.mem_cons_of_mem _ held⟩
        | inr other => exact ⟨stream, other.1, named, held⟩

theorem mergeSteps_ordered {μ : Type} [Preorder μ] (measure : ι × α → μ)
    (finer : ∀ one other, rank key one ≤ rank key other → measure one ≤ measure other) (apart : (streams.map Prod.fst).Nodup)
    (sorted : ∀ stream ∈ streams, stream.2.Pairwise fun one other => measure (stream.1, one) ≤ measure (stream.1, other)) (steps : ℕ) :
    (mergeSteps key steps streams).Pairwise fun one other => measure one ≤ measure other := by
  induction steps generalizing streams with
  | zero => exact .nil
  | succ steps ih =>
    obtain ⟨-, done⟩ | ⟨entry, rest, taken, least, done⟩ := mergeSteps_cases key steps streams
    · rw [done]
      exact .nil
    · rw [done]
      have named : ((advance entry.1 streams).map Prod.fst).Nodup := by rw [names_advance]; exact apart
      have still : ∀ stream ∈ advance entry.1 streams, stream.2.Pairwise fun one other =>
          measure (stream.1, one) ≤ measure (stream.1, other) := by
        intro stream member
        cases (mem_advance apart taken).1 member with
        | inl same =>
          subst same
          exact (List.pairwise_cons.1 (sorted _ taken)).2
        | inr other => exact sorted stream other.1
      refine List.pairwise_cons.2 ⟨fun other member => ?_, ih named still⟩
      obtain ⟨⟨name, items⟩, there, same, held⟩ := mem_mergeSteps named member
      have whole : other = (name, other.2) := Prod.ext same.symm rfl
      rw [whole]
      -- the entry is at most the head of that stream, and the head at most what stands behind it
      cases (mem_advance apart taken).1 there with
      | inl known =>
        cases known
        exact (List.pairwise_cons.1 (sorted _ taken)).1 other.2 held
      | inr kept =>
        cases items with
        | nil => cases held
        | cons head others =>
          have first : measure entry ≤ measure (name, head) := finer _ _ (least _ (mem_heads.2 ⟨others, kept.1⟩))
          cases List.mem_cons.1 held with
          | inl known => exact known ▸ first
          | inr later => exact first.trans ((List.pairwise_cons.1 (sorted _ kept.1)).1 other.2 later)

theorem mergeStreams_ranked (apart : (streams.map Prod.fst).Nodup)
    (sorted : ∀ stream ∈ streams, stream.2.Pairwise fun one other => key one ≤ key other) :
    (mergeStreams key streams).Pairwise fun one other => rank key one ≤ rank key other := by
  refine mergeSteps_ordered (rank key) (fun _ _ below => below) apart (fun stream member => ?_) _
  refine (sorted stream member).imp fun {one other} below => ?_
  have both : (key one, stream.1) ≤ (key other, stream.1) := ⟨below, le_rfl⟩
  exact Prod.Lex.toLex_mono both

theorem mergeStreams_perm (key : α → κ) (apart : (streams.map Prod.fst).Nodup) :
    ((mergeStreams key streams).map Prod.snd).Perm (content streams) := mergeSteps_perm apart le_rfl

theorem mergeStreams_stream (key : α → κ) (apart : (streams.map Prod.fst).Nodup) (member : stream ∈ streams) :
    (mergeStreams key streams).filter (fun entry => entry.1 = stream.1) = stream.2.map fun item => (stream.1, item) :=
  mergeSteps_stream apart le_rfl member

theorem stream_sublist (key : α → κ) (apart : (streams.map Prod.fst).Nodup) (member : stream ∈ streams) :
    stream.2.Sublist ((mergeStreams key streams).map Prod.snd) := by
  have kept : ((stream.2.map fun item => (stream.1, item)).map Prod.snd).Sublist ((mergeStreams key streams).map Prod.snd) := by
    rw [← mergeStreams_stream key apart member]
    exact List.filter_sublist.map Prod.snd
  rw [List.map_map] at kept
  exact (List.map_id stream.2) ▸ kept

/-- The merge is sorted, by its key or by a coarser one, when, and only when, its streams are. -/
theorem mergeStreams_sorted_iff {μ : Type} [Preorder μ] {coarse : α → μ} (coarser : ∀ one other, key one ≤ key other → coarse one ≤ coarse other)
    (apart : (streams.map Prod.fst).Nodup) :
    ((mergeStreams key streams).map Prod.snd).Pairwise (fun one other => coarse one ≤ coarse other) ↔
      ∀ stream ∈ streams, stream.2.Pairwise fun one other => coarse one ≤ coarse other := by
  constructor
  · intro sorted stream member
    exact sorted.sublist (stream_sublist key apart member)
  · intro sorted
    rw [List.pairwise_map]
    refine mergeSteps_ordered (fun entry => coarse entry.2) (fun one other below => ?_) apart sorted _
    cases Prod.Lex.toLex_le_toLex.1 below with
    | inl less => exact coarser _ _ less.le
    | inr equal => exact coarser _ _ equal.1.le

theorem indexed_nodup {α : Type} (streams : List α) : ((streams.zipIdx.map Prod.swap).map Prod.fst).Nodup := by
  rw [List.map_map]
  change (streams.zipIdx.map Prod.snd).Nodup
  rw [List.zipIdx_map_snd]
  exact List.nodup_range'

theorem indexed_content {α : Type} (streams : List (List α)) : content (streams.zipIdx.map Prod.swap) = streams.flatten := by
  unfold content
  rw [List.flatMap_map]
  change (streams.zipIdx).flatMap Prod.fst = streams.flatten
  rw [List.flatMap_def, List.zipIdx_map_fst]

theorem mem_mergeStreams (apart : (streams.map Prod.fst).Nodup) (member : stream ∈ streams) (held : item ∈ stream.2) :
    (stream.1, item) ∈ mergeStreams key streams := by
  have kept : (stream.1, item) ∈ stream.2.map fun item => (stream.1, item) := List.mem_map.2 ⟨item, held, rfl⟩
  rw [← mergeStreams_stream key apart member] at kept
  exact (List.mem_filter.1 kept).1

theorem pairwise_either {β : Type} {related : β → β → Prop} {items : List β} (ordered : items.Pairwise related) {one other : β}
    (here : one ∈ items) (there : other ∈ items) : one = other ∨ related one other ∨ related other one := by
  induction ordered with
  | nil => cases here
  | cons first _ ih =>
    cases List.mem_cons.1 here with
    | inl same =>
      subst same
      cases List.mem_cons.1 there with
      | inl same => exact .inl same.symm
      | inr later => exact .inr (.inl (first _ later))
    | inr later =>
      cases List.mem_cons.1 there with
      | inl same =>
        subst same
        exact .inr (.inr (first _ later))
      | inr beside => exact ih later beside

theorem pairwise_named {related : ι × α → ι × α → Prop} (entries : List (ι × α))
    (ordered : ∀ name, (entries.filter fun entry => entry.1 = name).Pairwise related) :
    entries.Pairwise fun one other => one.1 = other.1 → related one other := by
  induction entries with
  | nil => exact .nil
  | cons entry entries ih =>
    refine List.pairwise_cons.2 ⟨fun other member same => ?_, ih fun name => ?_⟩
    · have mine := ordered entry.1
      rw [List.filter_cons_of_pos (by simp)] at mine
      exact (List.pairwise_cons.1 mine).1 other (List.mem_filter.2 ⟨member, by simp [same]⟩)
    · have mine := ordered name
      by_cases same : entry.1 = name
      · rw [List.filter_cons_of_pos (by simpa using same)] at mine
        exact (List.pairwise_cons.1 mine).2
      · rw [List.filter_cons_of_neg (by simpa using same)] at mine
        exact mine

/-- Streams that are sorted by a finer order than the merge looks at are merged to a sorted one when, and only when, that order
agrees with the names' wherever the merge sees a tie. -/
theorem mergeStreams_finer_iff {μ : Type} [LinearOrder μ] {fine : α → μ} (coarser : ∀ one other, fine one ≤ fine other → key one ≤ key other)
    (apart : (streams.map Prod.fst).Nodup) (sorted : ∀ stream ∈ streams, stream.2.Pairwise fun one other => fine one ≤ fine other) :
    ((mergeStreams key streams).map Prod.snd).Pairwise (fun one other => fine one ≤ fine other) ↔
      ∀ first ∈ streams, ∀ second ∈ streams, first.1 < second.1 → ∀ one ∈ first.2, ∀ other ∈ second.2,
        key one = key other → fine one ≤ fine other := by
  have ranked : (mergeStreams key streams).Pairwise fun one other => rank key one ≤ rank key other :=
    mergeStreams_ranked apart fun stream member => (sorted stream member).imp fun {one other} => coarser one other
  rw [List.pairwise_map]
  constructor
  · intro ordered first here second there names one held other kept tie
    -- the two stand in the merge in the order of their names
    have between := pairwise_either (ranked.and ordered) (mem_mergeStreams apart here held) (mem_mergeStreams apart there kept)
    obtain same | inOrder | turned := between
    · exact absurd (congrArg Prod.fst same) names.ne
    · exact inOrder.2
    · cases Prod.Lex.toLex_le_toLex.1 turned.1 with
      | inl less => exact absurd tie less.ne'
      | inr equal => exact absurd names equal.2.not_gt
  · intro agree
    have streamed : ∀ name, ((mergeStreams key streams).filter fun entry => entry.1 = name).Pairwise
        fun one other => fine one.2 ≤ fine other.2 := by
      intro name
      by_cases known : ∃ stream ∈ streams, stream.1 = name
      · obtain ⟨stream, member, rfl⟩ := known
        rw [mergeStreams_stream key apart member, List.pairwise_map]
        exact sorted stream member
      · have none : (mergeStreams key streams).filter (fun entry => entry.1 = name) = [] := by
          refine List.filter_eq_nil_iff.2 fun entry member => ?_
          obtain ⟨stream, there, named, -⟩ := mem_mergeSteps apart member
          simpa using fun same : entry.1 = name => known ⟨stream, there, named.trans same⟩
        rw [none]
        exact .nil
    refine (ranked.and (pairwise_named _ streamed)).imp_of_mem fun {one other} here there below => ?_
    obtain ⟨below, beside⟩ := below
    cases Prod.Lex.toLex_le_toLex.1 below with
    | inl less => exact le_of_not_ge fun above => absurd (coarser _ _ above) less.not_ge
    | inr equal =>
      cases equal.2.lt_or_eq with
      | inr same => exact beside same
      | inl names =>
        obtain ⟨first, mine, firstName, held⟩ := mem_mergeSteps apart here
        obtain ⟨second, theirs, secondName, kept⟩ := mem_mergeSteps apart there
        refine agree first mine second theirs ?_ one.2 held other.2 kept equal.1
        rw [firstName, secondName]
        exact names

end Callisto.Library
