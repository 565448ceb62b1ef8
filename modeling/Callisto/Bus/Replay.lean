import Callisto.Bus.Envelope
import Callisto.Library.Merge

/-! The replay of a window: the sources of a topic are merged to its stream, and the topics' streams to one. -/

namespace Callisto.Bus

open Callisto.Library
open scoped List

/-- A topic of the catalog, with the streams that its sources open. -/
structure TopicSpec where
  isReplayable : Bool
  streams : List (List RecordedEvent)

inductive ReplayError where
  | unknownTopic (topic : String)
  | notReplayable (topic : String)
  deriving DecidableEq

/-- `multi_source_replayer`. Its heap holds the times and the numbers of the sources. -/
def multiSourceReplayer (field : TimeField) (streams : List (List RecordedEvent)) : List RecordedEvent :=
  match streams with
  | [single] => single
  | streams => (mergeStreams (fun event => event.time field) (streams.zipIdx.map Prod.swap)).map Prod.snd

/-- The specs of the window's topics, by topic in the order in which they are first named. -/
def resolveTopics (catalog : String → Option TopicSpec) : List String → List (String × TopicSpec) → Except ReplayError (List (String × TopicSpec))
  | [], specs => .ok specs
  | topic :: rest, specs =>
    match catalog topic with
    | none => .error (.unknownTopic topic)
    | some spec =>
      if spec.isReplayable then
        resolveTopics catalog rest (if topic ∈ specs.map Prod.fst then specs else specs ++ [(topic, spec)])
      else .error (.notReplayable topic)

/-- `RecordedEventBus.replay` -/
def replay (catalog : String → Option TopicSpec) (window : ReplayWindow) : Except ReplayError (List RecordedEvent) := do
  let specs ← resolveTopics catalog window.topics []
  let streams := specs.map fun entry => (entry.1, multiSourceReplayer window.timeField entry.2.streams)
  .ok ((mergeStreams (replayOrderKey window.timeField) streams).map Prod.snd)

def InReplayOrder (field : TimeField) (events : List RecordedEvent) : Prop :=
  events.Pairwise fun one other => replayOrderKey field one ≤ replayOrderKey field other

/-- Two replays of the same events in replay order have the same keys in the same places, in whatever order the sources are listed. -/
theorem inReplayOrder_unique {field : TimeField} {one other : List RecordedEvent} (first : InReplayOrder field one)
    (second : InReplayOrder field other) (same : one.Perm other) :
    one.map (replayOrderKey field) = other.map (replayOrderKey field) :=
  (same.map (replayOrderKey field)).eq_of_pairwise (fun _ _ _ _ => le_antisymm) (List.pairwise_map.2 first) (List.pairwise_map.2 second)

/-- Events of one time in two sources stand in the replay order already as the sources are listed. -/
def TiesInOrder (field : TimeField) (streams : List (List RecordedEvent)) : Prop :=
  streams.Pairwise fun first second => ∀ one ∈ first, ∀ other ∈ second,
    one.time field = other.time field → replayOrderKey field one ≤ replayOrderKey field other

theorem multiSourceReplayer_perm (field : TimeField) (streams : List (List RecordedEvent)) :
    (multiSourceReplayer field streams).Perm streams.flatten := by
  unfold multiSourceReplayer
  split
  · rw [List.flatten_singleton]
  · have perm := mergeStreams_perm (fun event : RecordedEvent => event.time field) (indexed_nodup streams)
    rw [indexed_content] at perm
    exact perm

theorem indexed_pairwise {α : Type} (related : α → α → Prop) (streams : List α) :
    (∀ first ∈ streams.zipIdx.map Prod.swap, ∀ second ∈ streams.zipIdx.map Prod.swap, first.1 < second.1 → related first.2 second.2) ↔
      streams.Pairwise related := by
  have member : ∀ entry : ℕ × α, entry ∈ streams.zipIdx.map Prod.swap ↔ streams[entry.1]? = some entry.2 := by
    intro entry
    rw [List.mem_map]
    constructor
    · intro found
      obtain ⟨pair, there, rfl⟩ := found
      exact List.mem_zipIdx_iff_getElem?.1 there
    · intro found
      exact ⟨(entry.2, entry.1), List.mem_zipIdx_iff_getElem?.2 found, rfl⟩
  rw [List.pairwise_iff_getElem]
  constructor
  · intro all i j hi hj less
    exact all (i, streams[i]) ((member _).2 (List.getElem?_eq_getElem hi)) (j, streams[j]) ((member _).2 (List.getElem?_eq_getElem hj)) less
  · intro all first here second there less
    obtain ⟨hi, left⟩ := List.getElem?_eq_some_iff.1 ((member first).1 here)
    obtain ⟨hj, right⟩ := List.getElem?_eq_some_iff.1 ((member second).1 there)
    have found := all first.1 second.1 hi hj less
    rw [left, right] at found
    exact found

theorem multiSourceReplayer_ordered (field : TimeField) {streams : List (List RecordedEvent)}
    (sorted : ∀ stream ∈ streams, InReplayOrder field stream) :
    InReplayOrder field (multiSourceReplayer field streams) ↔ TiesInOrder field streams := by
  unfold multiSourceReplayer
  split
  · next single => exact ⟨fun _ => List.pairwise_singleton _ _, fun _ => sorted single List.mem_cons_self⟩
  · have each : ∀ stream ∈ streams.zipIdx.map Prod.swap,
        stream.2.Pairwise fun one other => replayOrderKey field one ≤ replayOrderKey field other := by
      intro stream member
      obtain ⟨pair, there, rfl⟩ := List.mem_map.1 member
      exact sorted pair.1 (List.fst_mem_of_mem_zipIdx there)
    unfold InReplayOrder TiesInOrder
    rw [mergeStreams_finer_iff (fun _ _ below => time_le_of_key below) (indexed_nodup streams) each, ← indexed_pairwise]

theorem resolveTopics_spec {catalog : String → Option TopicSpec} {topics : List String} {specs : List (String × TopicSpec)}
    (known : ∀ topic ∈ topics, ∃ spec, catalog topic = some spec ∧ spec.isReplayable = true) (apart : (specs.map Prod.fst).Nodup)
    (resolved : ∀ entry ∈ specs, catalog entry.1 = some entry.2) :
    ∃ found, resolveTopics catalog topics specs = .ok found ∧ (found.map Prod.fst).Nodup ∧ (∀ entry ∈ found, catalog entry.1 = some entry.2) ∧
      ∀ topic, topic ∈ found.map Prod.fst ↔ topic ∈ specs.map Prod.fst ∨ topic ∈ topics := by
  induction topics generalizing specs with
  | nil => exact ⟨specs, rfl, apart, resolved, fun topic => by simp⟩
  | cons topic rest ih =>
    obtain ⟨spec, here, replayable⟩ := known topic List.mem_cons_self
    have later : ∀ other ∈ rest, ∃ spec, catalog other = some spec ∧ spec.isReplayable = true :=
      fun other member => known other (List.mem_cons_of_mem _ member)
    unfold resolveTopics
    rw [here]
    simp only [if_pos replayable]
    by_cases named : topic ∈ specs.map Prod.fst
    · rw [if_pos named]
      obtain ⟨found, done, distinct, read, members⟩ := ih later apart resolved
      refine ⟨found, done, distinct, read, fun other => ?_⟩
      rw [members, List.mem_cons]
      constructor
      · intro either
        cases either with
        | inl old => exact .inl old
        | inr new => exact .inr (.inr new)
      · intro either
        obtain old | same | new := either
        · exact .inl old
        · exact .inl (same ▸ named)
        · exact .inr new
    · rw [if_neg named]
      have distinct : ((specs ++ [(topic, spec)]).map Prod.fst).Nodup := by
        rw [List.map_append, List.nodup_append]
        refine ⟨apart, by simp, fun other member entry single => ?_⟩
        rw [List.mem_singleton.1 single]
        intro same
        have same : other = topic := same
        exact named (same ▸ member)
      have read : ∀ entry ∈ specs ++ [(topic, spec)], catalog entry.1 = some entry.2 := by
        intro entry member
        cases List.mem_append.1 member with
        | inl old => exact resolved entry old
        | inr new =>
          rw [List.mem_singleton.1 new]
          exact here
      obtain ⟨found, done, distinct, read, members⟩ := ih later distinct read
      refine ⟨found, done, distinct, read, fun other => ?_⟩
      rw [members, List.map_append, List.mem_append, List.mem_cons, or_assoc]
      simp

/-- The events of all the sources of the window's topics, each topic once. -/
def sourceEvents (catalog : String → Option TopicSpec) (topics : List String) : List RecordedEvent :=
  topics.dedup.flatMap fun topic => ((catalog topic).toList.flatMap TopicSpec.streams).flatten

theorem sourceEvents_perm {catalog : String → Option TopicSpec} {topics : List String} {found : List (String × TopicSpec)}
    (apart : (found.map Prod.fst).Nodup) (read : ∀ entry ∈ found, catalog entry.1 = some entry.2)
    (members : ∀ topic, topic ∈ found.map Prod.fst ↔ topic ∈ topics) (field : TimeField) :
    (content (found.map fun entry => (entry.1, multiSourceReplayer field entry.2.streams))).Perm (sourceEvents catalog topics) := by
  have names : (found.map Prod.fst).Perm topics.dedup :=
    (List.perm_ext_iff_of_nodup apart topics.nodup_dedup).2 fun topic => by rw [members, List.mem_dedup]
  have opened : found.flatMap (fun entry => entry.2.streams.flatten) =
      (found.map Prod.fst).flatMap fun topic => ((catalog topic).toList.flatMap TopicSpec.streams).flatten := by
    rw [List.flatMap_map]
    refine List.flatMap_congr fun entry member => ?_
    rw [read entry member]
    simp
  calc content (found.map fun entry => (entry.1, multiSourceReplayer field entry.2.streams))
      = found.flatMap (fun entry => multiSourceReplayer field entry.2.streams) := List.flatMap_map ..
    _ ~ found.flatMap (fun entry => entry.2.streams.flatten) :=
        List.Perm.flatMap_left _ fun entry _ => multiSourceReplayer_perm field entry.2.streams
    _ = (found.map Prod.fst).flatMap fun topic => ((catalog topic).toList.flatMap TopicSpec.streams).flatten := opened
    _ ~ sourceEvents catalog topics := names.flatMap_right _

/-- A replay of sorted sources is a permutation of their union; it is in replay order when, and only when, the ties between the
sources of each topic are. -/
theorem replay_ordered_iff (catalog : String → Option TopicSpec) (window : ReplayWindow)
    (replayable : ∀ topic ∈ window.topics, ∃ spec, catalog topic = some spec ∧ spec.isReplayable = true)
    (sorted : ∀ topic ∈ window.topics, ∀ spec ∈ catalog topic, ∀ stream ∈ spec.streams, InReplayOrder window.timeField stream) :
    (∃ events, replay catalog window = .ok events ∧ events.Perm (sourceEvents catalog window.topics) ∧
      InReplayOrder window.timeField events) ↔
    ∀ topic ∈ window.topics, ∀ spec ∈ catalog topic, TiesInOrder window.timeField spec.streams := by
  obtain ⟨found, done, apart, read, members⟩ :=
    @resolveTopics_spec catalog window.topics [] replayable .nil fun _ member => absurd member List.not_mem_nil
  have members : ∀ topic, topic ∈ found.map Prod.fst ↔ topic ∈ window.topics := fun topic => by simpa using members topic
  have names : ((found.map fun entry => (entry.1, multiSourceReplayer window.timeField entry.2.streams)).map Prod.fst).Nodup := by
    rw [List.map_map]
    exact apart
  have all := (mergeStreams_perm (replayOrderKey window.timeField) names).trans
    (sourceEvents_perm apart read members window.timeField)
  have replayed : replay catalog window = .ok ((mergeStreams (replayOrderKey window.timeField)
      (found.map fun entry => (entry.1, multiSourceReplayer window.timeField entry.2.streams))).map Prod.snd) := by
    unfold replay
    rw [done]
    rfl
  have inOrder : InReplayOrder window.timeField ((mergeStreams (replayOrderKey window.timeField)
      (found.map fun entry => (entry.1, multiSourceReplayer window.timeField entry.2.streams))).map Prod.snd) ↔
      ∀ topic ∈ window.topics, ∀ spec ∈ catalog topic, TiesInOrder window.timeField spec.streams := by
    unfold InReplayOrder
    rw [mergeStreams_sorted_iff (fun _ _ below => below) names, List.forall_mem_map]
    constructor
    · intro each topic member spec named
      obtain ⟨entry, there, rfl⟩ := List.mem_map.1 ((members topic).2 member)
      have same : entry.2 = spec := Option.some.inj ((read entry there).symm.trans named)
      subst same
      exact (multiSourceReplayer_ordered window.timeField (sorted entry.1 member entry.2 named)).1 (each entry there)
    · intro ties entry there
      have member := (members entry.1).1 (List.mem_map.2 ⟨entry, there, rfl⟩)
      exact (multiSourceReplayer_ordered window.timeField (sorted entry.1 member entry.2 (read entry there))).2
        (ties entry.1 member entry.2 (read entry there))
  constructor
  · intro ordered
    obtain ⟨events, same, -, ordered⟩ := ordered
    rw [Except.ok.inj (same.symm.trans replayed)] at ordered
    exact inOrder.1 ordered
  · intro ties
    exact ⟨_, replayed, all, inOrder.2 ties⟩

def bookCatalog (first second : ℤ) (topic : String) : Option TopicSpec :=
  if topic = "book.feed" then some ⟨true, [[bookEvent first], [bookEvent second]]⟩ else none

/-- The sources of a topic are merged by time alone: of two events of one time, that of the first source comes first. -/
theorem ties_out_of_order : ¬∃ events, replay (bookCatalog 2 1) bookWindow = .ok events ∧
    events.Perm (sourceEvents (bookCatalog 2 1) bookWindow.topics) ∧ InReplayOrder bookWindow.timeField events := by
  intro found
  obtain ⟨events, done, -, ordered⟩ := found
  have keys : (replay (bookCatalog 2 1) bookWindow).map (List.map (replayOrderKey .observedAtUs)) =
      .ok [replayOrderKey .observedAtUs (bookEvent 2), replayOrderKey .observedAtUs (bookEvent 1)] := by decide +kernel
  rw [done] at keys
  have known := Except.ok.inj keys
  have sorted : (events.map (replayOrderKey .observedAtUs)).Pairwise (· ≤ ·) := List.pairwise_map.2 ordered
  rw [known] at sorted
  exact absurd ((List.pairwise_cons.1 sorted).1 _ List.mem_cons_self) (by decide +kernel)

theorem replay_ordered_books : ∃ events, replay (bookCatalog 1 2) bookWindow = .ok events ∧
    events.Perm (sourceEvents (bookCatalog 1 2) bookWindow.topics) ∧ InReplayOrder bookWindow.timeField events := by
  have only : ∀ spec ∈ bookCatalog 1 2 "book.feed", spec = ⟨true, [[bookEvent 1], [bookEvent 2]]⟩ := fun spec member =>
    (Option.some.inj member).symm
  refine (replay_ordered_iff (bookCatalog 1 2) bookWindow ?_ ?_).2 ?_
  · intro topic member
    rw [List.mem_singleton.1 member]
    exact ⟨_, rfl, rfl⟩
  · intro topic member spec named stream there
    rw [List.mem_singleton.1 member] at named
    rw [only spec named] at there
    cases List.mem_cons.1 there with
    | inl same => exact same ▸ List.pairwise_singleton _ _
    | inr later => exact List.mem_singleton.1 later ▸ List.pairwise_singleton _ _
  · intro topic member spec named
    rw [List.mem_singleton.1 member] at named
    rw [only spec named]
    refine List.pairwise_pair.2 fun one here other there _ => ?_
    rw [List.mem_singleton.1 here, List.mem_singleton.1 there]
    decide +kernel

end Callisto.Bus
