import Callisto.Bus.Envelope
import Callisto.Bus.Pruner
import Callisto.Library.Grouping

/-! Live publishing on the recorded event bus, one event at a time and in a batch, and what either adds to what was published before. -/

namespace Callisto.Bus

open Callisto.Library
open Callisto.Library.Grouping
open Callisto.Ws (strip)

structure CatalogRow where
  topic : Pruner.Topic
  enabled : Bool

/-- `TopicNotRegisteredError` -/
inductive PublishError where
  | notRegistered (slug : String)
  | disabled (slug : String)
  deriving DecidableEq

/-- `repr` of a topic's name; its last letter may be a line feed. -/
def reprTopic (slug : String) : String :=
  "'" ++ String.ofList (slug.toList.flatMap fun char => if char = '\n' then ['\\', 'n'] else [char]) ++ "'"

def PublishError.text : PublishError → String
  | .notRegistered slug => "topic " ++ reprTopic slug ++ " is not registered in topic_catalog. Call register_topic(...) at recorder startup, " ++
      "or check for a typo in the publish call."
  | .disabled slug => "topic " ++ reprTopic slug ++ " is disabled in topic_catalog (enabled=false). Re-enable in Data Lab → Topics, " ++
      "or set enabled=true via register_topic(slug, enabled=True, ...)."

/-- A handler of type `η` is started in a task of its own, with the event. -/
structure RecordedEventBus (η : Type) where
  catalog : String → Option CatalogRow
  subscribers : String → List η
  /-- Of all the calls of the writer, the last of which is the present one, whether this one raises. -/
  storageWriter : Option (List (RecordedEvent × Json) → Except String Unit)

/-- The tasks that were started, the calls of the storage writer, the log, and the counts that wait for their flush. -/
structure Published (η : Type) where
  dispatched : List (η × RecordedEvent) := []
  stored : List (RecordedEvent × Json) := []
  logged : List String := []
  pending : Dict String ℕ := Dict.empty

/-- `schedule_touch_published` -/
def scheduleTouchPublished (slug : String) (nEvents : ℕ) (pending : Dict String ℕ) : Dict String ℕ :=
  if strip slug = "" then pending else pending.set (strip slug) ((pending.get? (strip slug)).getD 0 + nEvents)

variable {η : Type}

def Published.count (published : Published η) (slug : String) : ℕ := (published.pending.get? slug).getD 0

namespace RecordedEventBus

variable (bus : RecordedEventBus η)

/-- `require_topic` -/
def requireTopic (slug : String) : Except PublishError Pruner.Topic :=
  match bus.catalog slug with
  | none => .error (.notRegistered slug)
  | some row => if row.enabled then .ok row.topic else .error (.disabled slug)

def callbacks (slug : String) : List η := bus.subscribers slug ++ bus.subscribers "*"

def dispatch (done : Published η) (event : RecordedEvent) : Published η :=
  { done with dispatched := done.dispatched ++ (bus.callbacks event.topic).map fun callback => (callback, event) }

/-- The writer gets the event if there is a writer and the topic has a writable source. That it raised is only logged. -/
def store (failed : String) (topic : Pruner.Topic) (done : Published η) (event : RecordedEvent) : Published η :=
  match bus.storageWriter, topic.resolveWritableParquetSource with
  | some writer, some writable =>
    let stored := done.stored ++ [(event, writable)]
    match writer stored with
    | .ok () => { done with stored := stored }
    | .error _ => { done with stored := stored, logged := done.logged ++ [failed ++ event.topic ++ "/" ++ event.entityId] }
  | _, _ => done

/-- The events of a parquet topic are counted, those of a table only touch its time. -/
def touch (topic : Pruner.Topic) (slug : String) (nEvents : ℕ) (done : Published η) : Published η :=
  match topic.storageKind with
  | .parquet => { done with pending := scheduleTouchPublished slug nEvents done.pending }
  | .sqlTable => { done with pending := scheduleTouchPublished slug 0 done.pending }
  | _ => done

def publish (event : RecordedEvent) (done : Published η) : Published η × Option PublishError :=
  match bus.requireTopic event.topic with
  | .error error => (done, some error)
  | .ok topic =>
    let stored := bus.store "RecordedEventBus: storage_writer failed for " topic (bus.dispatch done event) event
    (touch topic event.topic 1 stored, none)

/-- A loop over `publish`, which the first error ends. -/
def publishEach : List RecordedEvent → Published η → Published η × Option PublishError
  | [], done => (done, none)
  | event :: rest, done =>
    match bus.publish event done with
    | (done, some error) => (done, some error)
    | (done, none) => publishEach rest done

/-- The turn of one topic in `publish_many`. -/
def publishTopic (slug : String) (batch : List RecordedEvent) (done : Published η) : Published η × Option PublishError :=
  match bus.requireTopic slug with
  | .error error => (done, some error)
  | .ok topic =>
    let dispatched := batch.foldl bus.dispatch done
    let stored := batch.foldl (bus.store "RecordedEventBus.publish_many: storage failed for " topic) dispatched
    (touch topic slug batch.length stored, none)

def publishTopics : List (String × List RecordedEvent) → Published η → Published η × Option PublishError
  | [], done => (done, none)
  | (slug, batch) :: rest, done =>
    match bus.publishTopic slug batch done with
    | (done, some error) => (done, some error)
    | (done, none) => publishTopics rest done

def publishMany (events : List RecordedEvent) (done : Published η) : Published η × Option PublishError :=
  bus.publishTopics (groupItems RecordedEvent.topic events) done

/-! ## What is added -/

def refusal (slug : String) : Option PublishError :=
  match bus.requireTopic slug with
  | .error error => some error
  | .ok _ => none

def accepts (slug : String) : Bool := (bus.refusal slug).isNone

def deliveries (event : RecordedEvent) : List (η × RecordedEvent) := (bus.callbacks event.topic).map fun callback => (callback, event)

def writesTo (slug : String) : Option Json :=
  match bus.storageWriter, bus.catalog slug with
  | some _, some row => row.topic.resolveWritableParquetSource
  | _, _ => none

def writes (event : RecordedEvent) : List (RecordedEvent × Json) := (bus.writesTo event.topic).toList.map fun writable => (event, writable)

def heard (slug : String) : Bool := !(bus.callbacks slug).isEmpty

def written (slug : String) : Bool := (bus.writesTo slug).isSome

def counted (slug : String) : Bool :=
  strip slug ≠ "" && match bus.catalog slug with
    | some row => row.topic.storageKind = .parquet
    | none => false

/-- From one state to another just these events were delivered, handed to the writer and counted. -/
structure Adds (before : Published η) (events : List RecordedEvent) (after : Published η) : Prop where
  dispatched : after.dispatched = before.dispatched ++ events.flatMap bus.deliveries
  stored : after.stored = before.stored ++ events.flatMap bus.writes
  count : ∀ slug, after.count slug = before.count slug + events.countP fun event => bus.counted event.topic && strip event.topic = slug

variable {bus}

theorem Adds.none (done : Published η) : bus.Adds done [] done where
  dispatched := (List.append_nil _).symm
  stored := (List.append_nil _).symm
  count _ := rfl

theorem Adds.append {before between after : Published η} {events more : List RecordedEvent} (first : bus.Adds before events between)
    (second : bus.Adds between more after) : bus.Adds before (events ++ more) after where
  dispatched := by rw [second.dispatched, first.dispatched, List.flatMap_append, List.append_assoc]
  stored := by rw [second.stored, first.stored, List.flatMap_append, List.append_assoc]
  count slug := by rw [second.count, first.count, List.countP_append, Nat.add_assoc]

variable {slug : String}

theorem requireTopic_refused {error : PublishError} (refused : bus.refusal slug = some error) :
    bus.requireTopic slug = .error error := by
  unfold refusal at refused
  split at refused
  · rename_i raised known
    rw [known, Option.some.inj refused]
  · cases refused

theorem requireTopic_accepted (accepted : bus.refusal slug = none) : ∃ topic, bus.requireTopic slug = .ok topic := by
  unfold refusal at accepted
  split at accepted
  · cases accepted
  · rename_i topic known
    exact ⟨topic, known⟩

theorem foldl_dispatch (done : Published η) (events : List RecordedEvent) :
    events.foldl bus.dispatch done = { done with dispatched := done.dispatched ++ events.flatMap bus.deliveries } := by
  induction events generalizing done with
  | nil => rw [List.foldl_nil, List.flatMap_nil, List.append_nil]
  | cons event rest ih =>
    rw [List.foldl_cons, ih, List.flatMap_cons, ← List.append_assoc]
    rfl

theorem catalog_of_requireTopic {topic : Pruner.Topic} (known : bus.requireTopic slug = .ok topic) :
    ∃ row, bus.catalog slug = some row ∧ row.topic = topic := by
  unfold requireTopic at known
  split at known
  · cases known
  · rename_i row found
    split at known
    · exact ⟨row, found, Except.ok.inj known⟩
    · cases known

theorem store_keeps (failed : String) {topic : Pruner.Topic} (done : Published η) {event : RecordedEvent}
    (known : bus.requireTopic event.topic = .ok topic) : (bus.store failed topic done event).stored = done.stored ++ bus.writes event ∧
      (bus.store failed topic done event).dispatched = done.dispatched ∧ (bus.store failed topic done event).pending = done.pending := by
  obtain ⟨row, found, same⟩ := catalog_of_requireTopic known
  unfold store writes writesTo
  rw [found]
  subst same
  cases bus.storageWriter with
  | none => exact ⟨(List.append_nil _).symm, rfl, rfl⟩
  | some writer =>
    dsimp only
    cases row.topic.resolveWritableParquetSource with
    | none => exact ⟨(List.append_nil _).symm, rfl, rfl⟩
    | some writable =>
      dsimp only
      cases writer (done.stored ++ [(event, writable)]) with
      | ok _ => exact ⟨rfl, rfl, rfl⟩
      | error _ => exact ⟨rfl, rfl, rfl⟩

theorem foldl_store (failed : String) {topic : Pruner.Topic} (known : bus.requireTopic slug = .ok topic) (done : Published η)
    {events : List RecordedEvent} (named : ∀ event ∈ events, event.topic = slug) :
    (events.foldl (bus.store failed topic) done).stored = done.stored ++ events.flatMap bus.writes ∧
      (events.foldl (bus.store failed topic) done).dispatched = done.dispatched ∧
        (events.foldl (bus.store failed topic) done).pending = done.pending := by
  induction events generalizing done with
  | nil => exact ⟨(List.append_nil _).symm, rfl, rfl⟩
  | cons event rest ih =>
    obtain ⟨stored, dispatched, pending⟩ := store_keeps failed done (named event List.mem_cons_self ▸ known)
    obtain ⟨later, still, kept⟩ := ih (bus.store failed topic done event) fun other member => named other (List.mem_cons_of_mem _ member)
    rw [List.foldl_cons, List.flatMap_cons, later, still, kept, stored, List.append_assoc]
    exact ⟨rfl, dispatched, pending⟩

theorem count_scheduleTouchPublished (done : Published η) (slug other : String) (nEvents : ℕ) :
    { done with pending := scheduleTouchPublished slug nEvents done.pending }.count other =
      done.count other + if strip slug ≠ "" ∧ strip slug = other then nEvents else 0 := by
  unfold Published.count scheduleTouchPublished
  by_cases blank : strip slug = ""
  · rw [if_pos blank, if_neg fun named => named.1 blank]
    rfl
  · rw [if_neg blank, Dict.get?_set]
    by_cases same : strip slug = other
    · rw [if_pos same, if_pos ⟨blank, same⟩, same]
      rfl
    · rw [if_neg same, if_neg fun named => same named.2]
      rfl

theorem touch_count {topic : Pruner.Topic} (known : bus.requireTopic slug = .ok topic) (nEvents : ℕ) (done : Published η)
    (other : String) : (touch topic slug nEvents done).count other =
      done.count other + if (bus.counted slug && strip slug = other) = true then nEvents else 0 := by
  obtain ⟨row, found, same⟩ := catalog_of_requireTopic known
  subst same
  unfold touch counted
  rw [found]
  cases kind : row.topic.storageKind with
  | parquet =>
    dsimp only
    rw [count_scheduleTouchPublished]
    simp [kind]
  | sqlTable =>
    dsimp only
    rw [count_scheduleTouchPublished]
    simp [kind]
  | externalParquet => simp [kind]
  | memory => simp [kind]
  | federated => simp [kind]

theorem touch_keeps (topic : Pruner.Topic) (slug : String) (nEvents : ℕ) (done : Published η) :
    (touch topic slug nEvents done).dispatched = done.dispatched ∧ (touch topic slug nEvents done).stored = done.stored := by
  unfold touch
  cases topic.storageKind <;> exact ⟨rfl, rfl⟩

theorem publishTopic_adds {batch : List RecordedEvent} (named : ∀ event ∈ batch, event.topic = slug)
    (accepted : bus.refusal slug = none) (done : Published η) :
    ∃ after, bus.publishTopic slug batch done = (after, none) ∧ bus.Adds done batch after := by
  obtain ⟨topic, known⟩ := requireTopic_accepted accepted
  unfold publishTopic
  rw [known]
  dsimp only
  obtain ⟨stored, dispatched, pending⟩ :=
    foldl_store "RecordedEventBus.publish_many: storage failed for " known (batch.foldl bus.dispatch done) named
  rw [foldl_dispatch] at stored dispatched pending ⊢
  refine ⟨_, rfl, ?_, ?_, fun other => ?_⟩
  · rw [(touch_keeps _ _ _ _).1, dispatched]
  · rw [(touch_keeps _ _ _ _).2, stored]
  · rw [touch_count known]
    have before : (batch.foldl (bus.store "RecordedEventBus.publish_many: storage failed for " topic)
        { done with dispatched := done.dispatched ++ batch.flatMap bus.deliveries }).count other = done.count other := by
      unfold Published.count
      rw [pending]
    have all : (batch.countP fun event => bus.counted event.topic && strip event.topic = other) =
        if (bus.counted slug && strip slug = other) = true then batch.length else 0 := by
      have same : ∀ event ∈ batch, (bus.counted event.topic && decide (strip event.topic = other)) =
          (bus.counted slug && decide (strip slug = other)) := fun event member => by rw [named event member]
      rw [List.countP_congr fun event member => by rw [same event member]]
      by_cases adds : (bus.counted slug && decide (strip slug = other)) = true
      · rw [if_pos adds, List.countP_eq_length.2 fun _ _ => adds]
      · rw [if_neg adds, List.countP_eq_zero.2 fun _ _ => adds]
    rw [before, all]

theorem publish_adds {event : RecordedEvent} (accepted : bus.refusal event.topic = none) (done : Published η) :
    ∃ after, bus.publish event done = (after, none) ∧ bus.Adds done [event] after := by
  obtain ⟨topic, known⟩ := requireTopic_accepted accepted
  unfold publish
  rw [known]
  dsimp only
  obtain ⟨stored, dispatched, pending⟩ := store_keeps "RecordedEventBus: storage_writer failed for " (bus.dispatch done event) known
  refine ⟨_, rfl, ?_, ?_, fun other => ?_⟩
  · rw [(touch_keeps _ _ _ _).1, dispatched, List.flatMap_singleton]
    rfl
  · rw [(touch_keeps _ _ _ _).2, stored, List.flatMap_singleton]
    rfl
  · rw [touch_count known, List.countP_singleton]
    refine congrArg (· + _) ?_
    unfold Published.count
    rw [pending]
    rfl

/-- A loop over `publish` adds the events before the first whose topic is refused, and raises for that one. -/
theorem publishEach_adds (bus : RecordedEventBus η) (events : List RecordedEvent) (done : Published η) :
    ∃ after, bus.publishEach events done = (after, events.findSome? fun event => bus.refusal event.topic) ∧
      bus.Adds done (events.takeWhile fun event => bus.accepts event.topic) after := by
  induction events generalizing done with
  | nil => exact ⟨done, rfl, .none done⟩
  | cons event rest ih =>
    rw [List.takeWhile_cons, List.findSome?_cons]
    unfold publishEach accepts
    cases refused : bus.refusal event.topic with
    | some error =>
      have stops : bus.publish event done = (done, some error) := by
        unfold publish
        rw [requireTopic_refused refused]
      rw [stops]
      exact ⟨done, rfl, .none done⟩
    | none =>
      obtain ⟨between, passes, adds⟩ := publish_adds refused done
      obtain ⟨after, goes, more⟩ := ih between
      rw [passes]
      exact ⟨after, goes, adds.append more⟩

theorem publishTopics_adds (bus : RecordedEventBus η) {groups : List (String × List RecordedEvent)}
    (named : ∀ group ∈ groups, ∀ event ∈ group.2, event.topic = group.1) (done : Published η) :
    ∃ after, bus.publishTopics groups done = (after, groups.findSome? fun group => bus.refusal group.1) ∧
      bus.Adds done ((groups.takeWhile fun group => bus.accepts group.1).flatMap Prod.snd) after := by
  induction groups generalizing done with
  | nil => exact ⟨done, rfl, .none done⟩
  | cons group rest ih =>
    rw [List.takeWhile_cons, List.findSome?_cons]
    unfold publishTopics accepts
    cases refused : bus.refusal group.1 with
    | some error =>
      have stops : bus.publishTopic group.1 group.2 done = (done, some error) := by
        unfold publishTopic
        rw [requireTopic_refused refused]
      rw [stops]
      exact ⟨done, rfl, .none done⟩
    | none =>
      obtain ⟨between, passes, adds⟩ := publishTopic_adds (named group List.mem_cons_self) refused done
      obtain ⟨after, goes, more⟩ := ih (fun other member => named other (List.mem_cons_of_mem _ member)) between
      rw [passes]
      exact ⟨after, goes, adds.append more⟩

/-- The batch adds the events of the topics that come before the first that is refused, topic by topic, and raises for the same event. -/
theorem publishMany_adds (bus : RecordedEventBus η) (events : List RecordedEvent) (done : Published η) :
    ∃ after, bus.publishMany events done = (after, events.findSome? fun event => bus.refusal event.topic) ∧
      bus.Adds done (regroup RecordedEvent.topic (reached bus.accepts RecordedEvent.topic events)) after := by
  have named : ∀ group ∈ grouped RecordedEvent.topic events, ∀ event ∈ group.2, event.topic = group.1 :=
    fun _ member _ inside => mem_grouped member inside
  obtain ⟨after, goes, adds⟩ := publishTopics_adds bus named done
  unfold publishMany
  rw [groupItems_eq]
  rw [grouped_findSome] at goes
  rw [grouped_takeWhile] at adds
  exact ⟨after, goes, adds⟩

end RecordedEventBus

end Callisto.Bus
