import Callisto.Ws.Payload

/-! A lane of the runtime signal queue: batches are published, compacted while they wait, and coalesced for the consumer. -/

namespace Callisto.Signals

open Callisto.Library
open Callisto.Ws (strip)

theorem strip_strip (text : String) : strip (strip text) = strip text := by
  have kept : ∀ chars : List Char, (chars.dropWhile Ws.isSpace).dropWhile Ws.isSpace = chars.dropWhile Ws.isSpace := by
    intro chars
    induction chars with
    | nil => rfl
    | cons char rest ih =>
      by_cases space : Ws.isSpace char = true
      · rw [List.dropWhile_cons_of_pos space, ih]
      · rw [List.dropWhile_cons_of_neg space, List.dropWhile_cons_of_neg space]
  -- what is left starts where the front was stripped, unless nothing is left
  have front : ∀ chars : List Char, ((chars.dropWhile Ws.isSpace).reverse.dropWhile Ws.isSpace).reverse.dropWhile Ws.isSpace =
      ((chars.dropWhile Ws.isSpace).reverse.dropWhile Ws.isSpace).reverse := by
    intro chars
    have stays := kept chars
    generalize chars.dropWhile Ws.isSpace = body at stays
    cases body with
    | nil => rfl
    | cons first rest =>
      have solid : ¬Ws.isSpace first = true := by
        intro space
        rw [List.dropWhile_cons_of_pos space] at stays
        have lengths := congrArg List.length stays
        have shorter := (List.dropWhile_sublist (l := rest) Ws.isSpace).length_le
        rw [List.length_cons] at lengths
        omega
      rw [List.reverse_cons, List.dropWhile_append]
      split
      · rw [List.dropWhile_cons_of_neg solid, List.reverse_singleton, List.dropWhile_cons_of_neg solid]
      · rw [List.reverse_append, List.reverse_singleton, List.singleton_append, List.dropWhile_cons_of_neg solid]
  unfold strip
  rw [String.toList_ofList, front, List.reverse_reverse, front]

/-- Signal ids as they are published: stripped, not blank, each once. -/
structure SignalIds where
  ids : List String
  plain : ∀ id ∈ ids, strip id = id ∧ id ≠ ""
  nodup : ids.Nodup

def SignalIds.add (known : SignalIds) (raw : String) : SignalIds :=
  if fresh : strip raw ≠ "" ∧ strip raw ∉ known.ids then
    { ids := known.ids ++ [strip raw]
      plain := fun id member => by
        cases List.mem_append.1 member with
        | inl old => exact known.plain id old
        | inr new =>
          rw [List.mem_singleton.1 new]
          exact ⟨strip_strip raw, fresh.1⟩
      nodup := List.nodup_append.2 ⟨known.nodup, List.nodup_singleton _, fun id member other single => by
        rw [List.mem_singleton.1 single]
        exact fun same => fresh.2 (same ▸ member)⟩ }
  else known

def noSignals : SignalIds := ⟨[], fun _ member => absurd member List.not_mem_nil, List.nodup_nil⟩

/-- `_normalize_signal_ids` -/
def normalizeSignalIds (limit : ℕ) : SignalIds → List String → SignalIds
  | known, [] => known
  | known, raw :: rest => if limit ≤ known.ids.length then known else normalizeSignalIds limit (known.add raw) rest

structure SignalBatch (σ : Type) where
  batchId : String
  batchEventType : String
  source : String
  signalIds : SignalIds
  signalSnapshots : Dict String σ
  emittedAt : String

/-- The arguments of `publish_signal_batch`, with the UUID and the time that the call takes. -/
structure SignalCall (σ : Type) where
  eventType : String
  source : Option String
  signalIds : List String
  trigger : String
  emittedAt : Option String
  signalSnapshots : Dict String σ
  batchId : String
  now : String

structure RuntimeSignalBatch (σ : Type) where
  sourceSignalIds : Dict String SignalIds := Dict.empty
  sourceSignalSnapshots : Dict String (Dict String σ) := Dict.empty
  batchIds : List String := []
  batchEventTypes : List String := []

def actionableEventTypes : List String := ["upsert_insert", "upsert_update", "upsert_reactivated", "reverse_entry"]

section Lane

variable {σ : Type} (lower : String → String)

/-- `_normalize_source`, and `_normalize_event_type`; `lower` is `str.lower`. -/
def normalizeSource (value : String) : String := lower (strip value)

def isActionableEvent (eventType trigger : String) : Bool :=
  eventType ∈ actionableEventTypes || (eventType = "" && trigger = "strategy_signal_bridge")

def publishedBatch (call : SignalCall σ) : Option (SignalBatch σ) :=
  let ids := normalizeSignalIds 5000 noSignals call.signalIds
  if ids.ids = [] then none
  else if isActionableEvent (normalizeSource lower call.eventType) (normalizeSource lower call.trigger) then
    some {
      batchId := call.batchId
      batchEventType := normalizeSource lower call.eventType
      source := normalizeSource lower (call.source.getD "")
      signalIds := ids
      signalSnapshots := call.signalSnapshots
      emittedAt := (call.emittedAt.filter fun time => time ≠ "").getD call.now }
  else none

def SignalBatch.sourceKey (batch : SignalBatch σ) : String :=
  let source := normalizeSource lower batch.source
  if source = "" then "__all__" else source

/-- One id of a payload: new ids come with the payload's snapshot, if it has one. -/
def takeSignal (snapshots : Dict String σ) (taken : SignalIds × Dict String σ) (raw : String) : SignalIds × Dict String σ :=
  let id := strip raw
  if id = "" ∨ id ∈ taken.1.ids then taken
  else
    (taken.1.add raw, match snapshots.get? id with
      | some snapshot => taken.2.set id snapshot
      | none => taken.2)

def takeBatch (taken : SignalIds × Dict String σ) (batch : SignalBatch σ) : SignalIds × Dict String σ :=
  batch.signalIds.ids.foldl (takeSignal batch.signalSnapshots) taken

def coalesceBatch (result : RuntimeSignalBatch σ) (batch : SignalBatch σ) : RuntimeSignalBatch σ :=
  let key := batch.sourceKey lower
  let taken := takeBatch ((result.sourceSignalIds.get? key).getD noSignals, (result.sourceSignalSnapshots.get? key).getD Dict.empty) batch
  {
    sourceSignalIds := result.sourceSignalIds.set key taken.1
    sourceSignalSnapshots := result.sourceSignalSnapshots.set key taken.2
    batchIds := if strip batch.batchId = "" then result.batchIds else result.batchIds ++ [strip batch.batchId]
    batchEventTypes :=
      let eventType := normalizeSource lower batch.batchEventType
      if eventType = "" then result.batchEventTypes else result.batchEventTypes ++ [eventType] }

/-- `_coalesce_batches` -/
def coalesceBatches (batches : List (SignalBatch σ)) : Option (RuntimeSignalBatch σ) :=
  if batches.isEmpty then none else some (batches.foldl (coalesceBatch lower) {})

def mergeBatch (existing batch : SignalBatch σ) : SignalBatch σ where
  batchId := batch.batchId
  batchEventType := batch.batchEventType
  source := existing.source
  signalIds := batch.signalIds.ids.foldl SignalIds.add existing.signalIds
  signalSnapshots := existing.signalSnapshots.update batch.signalSnapshots
  emittedAt := batch.emittedAt

/-- `_merge_same_source_payloads` -/
def mergeSameSourcePayloads (batches : List (SignalBatch σ)) : List (SignalBatch σ) :=
  (batches.foldl (fun merged batch =>
    let key := batch.sourceKey lower
    match merged.get? key with
    | none => merged.set key batch
    | some existing => merged.set key (mergeBatch existing batch)) Dict.empty).values

def queueCompactThreshold : ℕ := 512

/-- `publish_signal_batch`, on the queue of its lane. -/
def publishSignalBatch (queue : List (SignalBatch σ)) (call : SignalCall σ) : List (SignalBatch σ) :=
  match publishedBatch lower call with
  | none => queue
  | some batch => (if queueCompactThreshold ≤ queue.length then mergeSameSourcePayloads lower queue else queue) ++ [batch]

/-- What happens to a lane: a call publishes, or the queue is compacted. -/
inductive LaneStep (σ : Type) where
  | publish (call : SignalCall σ)
  | compact

def laneStep (queue : List (SignalBatch σ)) : LaneStep σ → List (SignalBatch σ)
  | .publish call => queue ++ (publishedBatch lower call).toList
  | .compact => mergeSameSourcePayloads lower queue

def laneRun (steps : List (LaneStep σ)) : List (SignalBatch σ) := steps.foldl (laneStep lower) []

def LaneStep.call : LaneStep σ → Option (SignalCall σ)
  | .publish call => some call
  | .compact => none

def publishedBatches (calls : List (SignalCall σ)) : List (SignalBatch σ) := calls.filterMap (publishedBatch lower)

end Lane

end Callisto.Signals
