import Callisto.Bus.Publish
import Callisto.Library.Traversals

/-! When a batch is published as a loop over its events would publish them. -/

namespace Callisto.Bus.RecordedEventBus

open Callisto.Library
open Callisto.Library.Grouping
open Callisto.Ws (strip)

variable {η : Type}

/-- Batch and loop deliver, store and count the same, and raise the same. -/
structure SameSemantics (bus : RecordedEventBus η) (before : Published η) (events : List RecordedEvent) : Prop where
  delivered : (bus.publishMany events before).1.dispatched = (bus.publishEach events before).1.dispatched
  stored : (bus.publishMany events before).1.stored = (bus.publishEach events before).1.stored
  counted : ∀ slug, (bus.publishMany events before).1.count slug = (bus.publishEach events before).1.count slug
  raised : (bus.publishMany events before).2 = (bus.publishEach events before).2

/-- The events before the first whose topic is not registered or disabled. -/
def accepted (bus : RecordedEventBus η) (events : List RecordedEvent) : List RecordedEvent :=
  events.takeWhile fun event => bus.accepts event.topic

/-- Behind the first refused topic comes no event of a topic that came before it, of the topics that are asked for. -/
def NoneBehind (bus : RecordedEventBus η) (events : List RecordedEvent) (asked : String → Bool) : Prop :=
  ∀ event ∈ events.dropWhile fun event => bus.accepts event.topic, event.topic ∈ (bus.accepted events).map RecordedEvent.topic →
    asked event.topic = false

/-- Up to a refused topic the events that are heard stand together by topic, and so do those that are written; and behind it comes no
event of a topic from before it that is heard, written or counted. -/
structure InBatches (bus : RecordedEventBus η) (events : List RecordedEvent) : Prop where
  heard : Contiguous RecordedEvent.topic ((bus.accepted events).filter fun event => bus.heard event.topic)
  written : Contiguous RecordedEvent.topic ((bus.accepted events).filter fun event => bus.written event.topic)
  heard_behind : bus.NoneBehind events bus.heard
  written_behind : bus.NoneBehind events bus.written
  counted_behind : bus.NoneBehind events bus.counted

variable {bus : RecordedEventBus η}

theorem deliveries_isEmpty (event : RecordedEvent) : (!(bus.deliveries event).isEmpty) = bus.heard event.topic := by
  unfold deliveries heard
  rw [List.isEmpty_map]

theorem writes_isEmpty (event : RecordedEvent) : (!(bus.writes event).isEmpty) = bus.written event.topic := by
  unfold writes written
  cases bus.writesTo event.topic <;> rfl

/-- The deliveries of two lists are the same exactly if the events are that someone hears. -/
theorem deliveries_eq_iff {first second : List RecordedEvent} : first.flatMap bus.deliveries = second.flatMap bus.deliveries ↔
    first.filter (fun event => bus.heard event.topic) = second.filter fun event => bus.heard event.topic := by
  have told : ∀ event, ∀ given ∈ bus.deliveries event, given.2 = event := by
    intro event given member
    obtain ⟨callback, -, rfl⟩ := List.mem_map.1 member
    rfl
  rw [flatMap_eq_iff Prod.snd told]
  simp only [deliveries_isEmpty]

theorem writes_eq_iff {first second : List RecordedEvent} : first.flatMap bus.writes = second.flatMap bus.writes ↔
    first.filter (fun event => bus.written event.topic) = second.filter fun event => bus.written event.topic := by
  have told : ∀ event, ∀ given ∈ bus.writes event, given.1 = event := by
    intro event given member
    obtain ⟨writable, -, rfl⟩ := List.mem_map.1 member
    rfl
  rw [flatMap_eq_iff Prod.fst told]
  simp only [writes_isEmpty]

/-- Regrouping changes no count; the events that the batch reaches behind the refused one add to it. -/
theorem counts_eq_iff (bus : RecordedEventBus η) (events : List RecordedEvent) :
    (∀ slug, ((regroup RecordedEvent.topic (reached bus.accepts RecordedEvent.topic events)).countP
        fun event => bus.counted event.topic && strip event.topic = slug) =
      (bus.accepted events).countP fun event => bus.counted event.topic && strip event.topic = slug) ↔
    bus.NoneBehind events bus.counted := by
  have more : ∀ slug, ((regroup RecordedEvent.topic (reached bus.accepts RecordedEvent.topic events)).countP
      fun event => bus.counted event.topic && strip event.topic = slug) =
      ((bus.accepted events).countP fun event => bus.counted event.topic && strip event.topic = slug) +
        ((events.dropWhile fun event => bus.accepts event.topic).filter fun event =>
          event.topic ∈ (bus.accepted events).map RecordedEvent.topic).countP fun event => bus.counted event.topic && strip event.topic = slug := by
    intro slug
    rw [(regroup_perm RecordedEvent.topic _).countP_eq, reached_eq, List.countP_append]
    rfl
  constructor
  · intro same event member early
    refine Bool.eq_false_iff.2 fun adds => ?_
    have total := (more (strip event.topic)).symm.trans (same (strip event.topic))
    have none := List.countP_eq_zero.1 (Nat.add_eq_left.1 total) event (List.mem_filter.2 ⟨member, decide_eq_true early⟩)
    exact none (Bool.and_eq_true_iff.2 ⟨adds, decide_eq_true rfl⟩)
  · intro none slug
    rw [more slug]
    refine Nat.add_eq_left.2 (List.countP_eq_zero.2 fun event held adds => ?_)
    obtain ⟨member, early⟩ := List.mem_filter.1 held
    have silent := none event member (of_decide_eq_true early)
    rw [silent] at adds
    cases adds

/-- A batch is published as by a loop exactly if its events come in batches. -/
theorem publishMany_eq_loop_iff (bus : RecordedEventBus η) (before : Published η) (events : List RecordedEvent) :
    SameSemantics bus before events ↔ InBatches bus events := by
  obtain ⟨batch, many, batched⟩ := publishMany_adds bus events before
  obtain ⟨each, loop, looped⟩ := publishEach_adds bus events before
  have delivered : batch.dispatched = each.dispatched ↔
      Contiguous RecordedEvent.topic ((bus.accepted events).filter fun event => bus.heard event.topic) ∧ bus.NoneBehind events bus.heard := by
    rw [batched.dispatched, looped.dispatched, List.append_cancel_left_eq, deliveries_eq_iff]
    exact regroup_reached_iff bus.heard events
  have stored : batch.stored = each.stored ↔
      Contiguous RecordedEvent.topic ((bus.accepted events).filter fun event => bus.written event.topic) ∧ bus.NoneBehind events bus.written := by
    rw [batched.stored, looped.stored, List.append_cancel_left_eq, writes_eq_iff]
    exact regroup_reached_iff bus.written events
  have counted : (∀ slug, batch.count slug = each.count slug) ↔ bus.NoneBehind events bus.counted := by
    rw [← counts_eq_iff]
    refine forall_congr' fun slug => ?_
    rw [batched.count, looped.count, Nat.add_left_cancel_iff]
    rfl
  constructor
  · intro same
    obtain ⟨delivers, stores, counts, -⟩ := same
    rw [many, loop] at delivers stores counts
    exact ⟨(delivered.1 delivers).1, (stored.1 stores).1, (delivered.1 delivers).2, (stored.1 stores).2, counted.1 counts⟩
  · intro good
    refine ⟨?_, ?_, ?_, ?_⟩ <;> rw [many, loop]
    · exact delivered.2 ⟨good.heard, good.heard_behind⟩
    · exact stored.2 ⟨good.written, good.written_behind⟩
    · exact counted.2 good.counted_behind

def feedEvent (topic : String) (named : isTopic topic = true) (sequence : ℤ) : RecordedEvent :=
  { bookEvent sequence with topic := topic, named := named }

/-- Two feeds that are only fanned out, to one subscriber of all topics. -/
def feedBus : RecordedEventBus Unit where
  catalog slug := if slug = "book.feed" ∨ slug = "trade.feed" then some ⟨⟨slug, .memory, "", none, none, 0⟩, true⟩ else none
  subscribers slug := if slug = "*" then [()] else []
  storageWriter := none

/-- Of two feeds that take turns the batch delivers the one before the other. Of an event that is refused it has delivered what follows. -/
theorem publishMany_reorders :
    ¬SameSemantics feedBus {} [feedEvent "book.feed" (by decide +kernel) 1, feedEvent "trade.feed" (by decide +kernel) 2,
      feedEvent "book.feed" (by decide +kernel) 3] ∧
    ¬SameSemantics feedBus {} [feedEvent "book.feed" (by decide +kernel) 1, feedEvent "other.feed" (by decide +kernel) 2,
      feedEvent "book.feed" (by decide +kernel) 3] := by
  constructor
  · intro same
    have order := congrArg (List.map fun delivery => delivery.2.sequence) same.delivered
    exact absurd order (by decide +kernel)
  · intro same
    have order := congrArg (List.map fun delivery => delivery.2.sequence) same.delivered
    exact absurd order (by decide +kernel)

end Callisto.Bus.RecordedEventBus
