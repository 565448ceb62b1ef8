import Callisto.Bus.Parquet

/-! What the writer's run leaves in the ring and in the files: every event that was offered, in its partition. -/

namespace Callisto.Bus

open Callisto.Library

variable {platform : Platform} {names : ℕ → String} {events : List RecordedEvent}

def pending (ring : WriteRing) : List RecordedEvent := ring.buckets.flatMap Prod.snd

def storedRows (files : List ParquetFile) : List RecordedEvent := files.flatMap ParquetFile.rows

theorem addEvent_perm (key : BucketKey) (event : RecordedEvent) (buckets : List (BucketKey × List RecordedEvent)) :
    ((addEvent key event buckets).flatMap Prod.snd).Perm (event :: buckets.flatMap Prod.snd) := by
  induction buckets with
  | nil => exact .refl _
  | cons bucket rest ih =>
    unfold addEvent
    by_cases same : bucket.1 = key
    · rw [if_pos same]
      change ((bucket.2 ++ [event]) ++ rest.flatMap Prod.snd).Perm (event :: (bucket.2 ++ rest.flatMap Prod.snd))
      rw [List.append_assoc]
      exact List.perm_middle
    · rw [if_neg same]
      change (bucket.2 ++ (addEvent key event rest).flatMap Prod.snd).Perm (event :: (bucket.2 ++ rest.flatMap Prod.snd))
      exact (ih.append_left bucket.2).trans List.perm_middle

theorem mem_addEvent {key : BucketKey} {event : RecordedEvent} {buckets : List (BucketKey × List RecordedEvent)}
    {bucket : BucketKey × List RecordedEvent} (member : bucket ∈ addEvent key event buckets) {held : RecordedEvent} (inside : held ∈ bucket.2) :
    (bucket.1 = key ∧ held = event) ∨ ∃ before ∈ buckets, before.1 = bucket.1 ∧ held ∈ before.2 := by
  induction buckets with
  | nil =>
    cases List.mem_singleton.1 member
    exact .inl ⟨rfl, List.mem_singleton.1 inside⟩
  | cons first rest ih =>
    unfold addEvent at member
    by_cases same : first.1 = key
    · rw [if_pos same] at member
      cases List.mem_cons.1 member with
      | inl new =>
        subst new
        cases List.mem_append.1 inside with
        | inl old => exact .inr ⟨first, List.mem_cons_self, same, old⟩
        | inr added => exact .inl ⟨rfl, List.mem_singleton.1 added⟩
      | inr later => exact .inr ⟨bucket, List.mem_cons_of_mem _ later, rfl, inside⟩
    · rw [if_neg same] at member
      cases List.mem_cons.1 member with
      | inl old => exact .inr ⟨first, List.mem_cons_self, by rw [old], by rw [← old]; exact inside⟩
      | inr later =>
        obtain new | ⟨before, there, named, held⟩ := ih later
        · exact .inl new
        · exact .inr ⟨before, List.mem_cons_of_mem _ there, named, held⟩

/-- The run so far has offered these events: each is in its bucket or in a file of its partition, and no two files have one name. -/
structure WrittenSoFar (platform : Platform) (names : ℕ → String) (events : List RecordedEvent) (writer : Writer) : Prop where
  kept : (pending writer.ring ++ storedRows writer.store.files).Perm events
  keyed : ∀ bucket ∈ writer.ring.buckets, ∀ event ∈ bucket.2, bucketKey platform event = bucket.1
  placed : ∀ file ∈ writer.store.files, ∀ event ∈ file.rows,
    file.segment = safeSegment platform event.entityId ∧ file.day = platform.utcDay event.observedAtUs
  named : ∀ file ∈ writer.store.files, ∃ number < writer.store.written, file.name = names number
  distinct : writer.store.files.Pairwise fun one other => one.name ≠ other.name

theorem writtenSoFar_start : WrittenSoFar platform names [] {} := by
  constructor
  · exact .refl _
  · intro bucket member
    cases member
  · intro file member
    cases member
  · intro file member
    cases member
  · exact .nil

theorem writtenSoFar_offer {writer : Writer} (so : WrittenSoFar platform names events writer)
    (event : RecordedEvent) (room : writer.ring.total + 1 ≤ maxRingSize) :
    WrittenSoFar platform names (events ++ [event]) (writer.step platform names (.offer event)) := by
  have ring : (writer.step platform names (.offer event)).ring =
      ⟨addEvent (bucketKey platform event) event writer.ring.buckets, writer.ring.total + 1⟩ := by
    change writer.ring.offer platform event = _
    unfold WriteRing.offer
    exact if_neg (Nat.not_lt.2 room)
  constructor
  · rw [ring]
    change (((addEvent (bucketKey platform event) event writer.ring.buckets).flatMap Prod.snd) ++ storedRows writer.store.files).Perm _
    have first := (addEvent_perm (bucketKey platform event) event writer.ring.buckets).append_right (storedRows writer.store.files)
    exact first.trans ((so.kept.cons event).trans (List.perm_append_singleton event events).symm)
  · rw [ring]
    intro bucket member held inside
    obtain ⟨named, rfl⟩ | ⟨before, there, named, old⟩ := mem_addEvent member inside
    · exact named.symm
    · exact (so.keyed before there held old).trans named
  · exact so.placed
  · exact so.named
  · exact so.distinct

theorem writeBatch_fresh (injective : Function.Injective names) {store : ParquetStore}
    (named : ∀ file ∈ store.files, ∃ number < store.written, file.name = names number) (batch : BucketKey × List RecordedEvent) :
    (writeBatch platform names store batch).files =
      store.files ++ [⟨safeSegment platform batch.1.2.1, batch.1.2.2, names store.written, batch.2⟩] := by
  unfold writeBatch
  dsimp only
  congr 1
  refine List.filter_eq_self.2 fun file member => ?_
  obtain ⟨number, below, same⟩ := named file member
  have other : file.name ≠ names store.written := by
    rw [same]
    exact fun equal => below.ne (injective equal)
  simp [other]

theorem writtenSoFar_batch (injective : Function.Injective names) {ring : WriteRing} {store : ParquetStore}
    {batch : BucketKey × List RecordedEvent} {rest : List (BucketKey × List RecordedEvent)}
    (so : WrittenSoFar platform names events ⟨⟨batch :: rest, ring.total⟩, store⟩) :
    WrittenSoFar platform names events ⟨⟨rest, ring.total⟩, writeBatch platform names store batch⟩ := by
  have files : (writeBatch platform names store batch).files = _ := writeBatch_fresh injective so.named batch
  have written : (writeBatch platform names store batch).written = store.written + 1 := rfl
  have keyed := so.keyed batch List.mem_cons_self
  constructor
  · change (rest.flatMap Prod.snd ++ (writeBatch platform names store batch).files.flatMap ParquetFile.rows).Perm events
    rw [files, List.flatMap_append]
    change (rest.flatMap Prod.snd ++ (storedRows store.files ++ (batch.2 ++ []))).Perm events
    have whole : ((batch.2 ++ rest.flatMap Prod.snd) ++ storedRows store.files).Perm events := so.kept
    rw [List.append_nil]
    refine List.Perm.trans ?_ whole
    rw [← List.append_assoc]
    refine List.perm_append_comm.trans ?_
    rw [List.append_assoc]
  · intro bucket member
    exact so.keyed bucket (List.mem_cons_of_mem _ member)
  · intro file member event inside
    change file ∈ (writeBatch platform names store batch).files at member
    rw [files] at member
    cases List.mem_append.1 member with
    | inl old => exact so.placed file old event inside
    | inr new =>
      cases List.mem_singleton.1 new
      have key := keyed event inside
      exact ⟨by rw [← key]; rfl, by rw [← key]; rfl⟩
  · intro file member
    change file ∈ (writeBatch platform names store batch).files at member
    change ∃ number < (writeBatch platform names store batch).written, _
    rw [files] at member
    rw [written]
    cases List.mem_append.1 member with
    | inl old =>
      obtain ⟨number, below, same⟩ := so.named file old
      exact ⟨number, Nat.lt_succ_of_lt below, same⟩
    | inr new =>
      cases List.mem_singleton.1 new
      exact ⟨store.written, Nat.lt_succ_self _, rfl⟩
  · change (writeBatch platform names store batch).files.Pairwise _
    rw [files]
    refine List.pairwise_append.2 ⟨so.distinct, List.pairwise_singleton _ _, fun file old new single => ?_⟩
    cases List.mem_singleton.1 single
    obtain ⟨number, below, same⟩ := so.named file old
    change file.name ≠ names store.written
    rw [same]
    exact fun equal => below.ne (injective equal)

theorem writtenSoFar_batches (injective : Function.Injective names) {left : WriteRing}
    (batches : List (BucketKey × List RecordedEvent)) {store : ParquetStore}
    (so : WrittenSoFar platform names events ⟨⟨batches ++ left.buckets, left.total⟩, store⟩) :
    WrittenSoFar platform names events ⟨left, batches.foldl (writeBatch platform names) store⟩ := by
  induction batches generalizing store with
  | nil => exact so
  | cons batch rest ih => exact ih (@writtenSoFar_batch platform names events injective ⟨[], left.total⟩ store batch _ so)

/-- The buckets of a flush are some of the ring's, and those that hold events are drained or left. -/
theorem drain_spec (everything : Bool) (ring : WriteRing) :
    ((ring.drain everything).1.flatMap Prod.snd ++ pending (ring.drain everything).2).Perm (pending ring) ∧
      ∀ bucket, bucket ∈ (ring.drain everything).1 ++ (ring.drain everything).2.buckets → bucket ∈ ring.buckets := by
  cases everything with
  | true =>
    have filled : (ring.buckets.filter fun bucket : BucketKey × List RecordedEvent => decide (bucket.2 ≠ [])).flatMap Prod.snd =
        pending ring := by
      unfold pending
      induction ring.buckets with
      | nil => rfl
      | cons bucket rest ih =>
        by_cases empty : bucket.2 = []
        · rw [List.filter_cons_of_neg (by simpa using empty), ih, List.flatMap_cons, empty]
          rfl
        · rw [List.filter_cons_of_pos (by simpa using empty), List.flatMap_cons, List.flatMap_cons, ih]
    constructor
    · change ((ring.buckets.filter fun bucket : BucketKey × List RecordedEvent => decide (bucket.2 ≠ [])).flatMap Prod.snd ++ []).Perm
        (pending ring)
      rw [filled, List.append_nil]
    · intro bucket member
      cases List.mem_append.1 member with
      | inl drained => exact (List.mem_filter.1 drained).1
      | inr left => cases left
  | false =>
    constructor
    · have split := List.filter_append_perm (fun bucket : BucketKey × List RecordedEvent => decide (flushBatchSize ≤ bucket.2.length)) ring.buckets
      have moved := split.flatMap_right Prod.snd
      rw [List.flatMap_append] at moved
      have left : (ring.drain false).2.buckets =
          ring.buckets.filter fun bucket => !decide (flushBatchSize ≤ bucket.2.length) :=
        List.filter_congr fun bucket _ => decide_not
      unfold pending
      rw [left]
      exact moved
    · intro bucket member
      cases List.mem_append.1 member with
      | inl drained => exact (List.mem_filter.1 drained).1
      | inr left => exact (List.mem_filter.1 left).1

theorem writtenSoFar_flush (injective : Function.Injective names) {writer : Writer}
    (so : WrittenSoFar platform names events writer) (everything : Bool) :
    WrittenSoFar platform names events (writer.step platform names (.flush everything)) := by
  obtain ⟨moved, members⟩ := drain_spec everything writer.ring
  refine writtenSoFar_batches injective (writer.ring.drain everything).1 ?_
  constructor
  · change (((writer.ring.drain everything).1 ++ (writer.ring.drain everything).2.buckets).flatMap Prod.snd ++ _).Perm events
    rw [List.flatMap_append]
    exact (moved.append_right _).trans so.kept
  · intro bucket member
    exact so.keyed bucket (members bucket member)
  · exact so.placed
  · exact so.named
  · exact so.distinct

def WithinCap (platform : Platform) (names : ℕ → String) : List WriterStep → Writer → Prop
  | [], _ => True
  | .offer event :: rest, writer =>
    writer.ring.total + 1 ≤ maxRingSize ∧ WithinCap platform names rest (writer.step platform names (.offer event))
  | .flush everything :: rest, writer => WithinCap platform names rest (writer.step platform names (.flush everything))

def offered : List WriterStep → List RecordedEvent
  | [] => []
  | .offer event :: rest => event :: offered rest
  | .flush _ :: rest => offered rest

theorem writtenSoFar_run (injective : Function.Injective names) (steps : List WriterStep) {writer : Writer}
    (so : WrittenSoFar platform names events writer) (room : WithinCap platform names steps writer) :
    WrittenSoFar platform names (events ++ offered steps) (writer.run platform names steps) := by
  induction steps generalizing events writer with
  | nil =>
    rw [offered, List.append_nil]
    exact so
  | cons step rest ih =>
    cases step with
    | offer event =>
      have next := ih (writtenSoFar_offer so event room.1) room.2
      rw [List.append_assoc] at next
      exact next
    | flush everything => exact ih (writtenSoFar_flush injective so everything) room

theorem flushed_perm (injective : Function.Injective names) (steps : List WriterStep) (room : WithinCap platform names steps {}) :
    (storedRows (Writer.run platform names (steps ++ [.flush true]) {}).store.files).Perm (offered steps) := by
  have so := writtenSoFar_flush injective (writtenSoFar_run injective steps writtenSoFar_start room) true
  have run : Writer.run platform names (steps ++ [.flush true]) {} =
      (Writer.run platform names steps {}).step platform names (.flush true) := List.foldl_append
  rw [run]
  exact so.kept

end Callisto.Bus
