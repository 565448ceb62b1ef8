import Callisto.Library.Runs
import Callisto.Signals.Queue
import Callisto.Signals.RedisBridge
import Mathlib.Data.NNRat.Defs

/-! What the bridge suppresses over whole histories of local emissions and messages, whose contents are recorded beside the code. -/

namespace Callisto.Signals.Bridge

open Callisto.Library Callisto.Library.Runs
open Callisto.Ws (strip)

/-- A local emission of an id that `mark_locally_emitted` is told of, or a message, with the contents of the emissions. -/
inductive Occurrence (γ σ : Type) where
  | emittedLocally (signalId : String) (content : γ)
  | received (message : Message σ) (content : String → γ)

structure Event (γ σ : Type) where
  elapsed : ℚ≥0
  occurrence : Occurrence γ σ

/-- The clock and the stamps of the bridge; and for each id the content of its latest emission, and of the latest one that was delivered
to this process, with the time. -/
structure History (γ : Type) where
  clock : ℚ
  seenAt : SeenAt
  latest : Dict String γ
  delivered : Dict String (γ × ℚ)

namespace History

variable {γ σ : Type}

def start (clock : ℚ) : History γ := ⟨clock, .empty, .empty, .empty⟩

def setAll {ν : Type} (dict : Dict String ν) (keys : List String) (value : String → ν) : Dict String ν :=
  keys.foldl (fun held key => held.set key (value key)) dict

theorem get?_setAll {ν : Type} (dict : Dict String ν) (keys : List String) (value : String → ν) (key : String) :
    (setAll dict keys value).get? key = if key ∈ keys then some (value key) else dict.get? key := by
  have agree : ∀ entry ∈ keys.map fun key => (key, value key), some (value entry.1) = some entry.2 := by
    intro entry member
    have ⟨_, _, same⟩ := List.mem_map.1 member
    rw [← same]
  have folded := @Dict.get?_foldl_set _ _ _ _ (fun key => some (value key)) agree dict key
  rw [List.foldl_map] at folded
  rw [setAll, folded]
  simp

def now (history : History γ) (event : Event γ σ) : ℚ := history.clock + event.elapsed

def wake (history : History γ) (event : Event γ σ) (message : Message σ) : Option (Wake σ) :=
  (bridge (history.now event) message history.seenAt).2

def step (history : History γ) (event : Event γ σ) : History γ :=
  match event.occurrence with
  | .emittedLocally signalId content =>
    if signalId = "" then { history with clock := history.now event }
    else
      { clock := history.now event
        seenAt := add (history.now event) signalId history.seenAt
        latest := history.latest.set signalId content
        delivered := history.delivered.set signalId (content, history.now event) }
  | .received message content =>
    { clock := history.now event
      seenAt := (bridge (history.now event) message history.seenAt).1
      latest := setAll history.latest message.ids content
      delivered := setAll history.delivered (wokenIds (history.wake event message)) fun id => (content id, history.now event) }

/-- Each id of a message is handed over, or was delivered last with this content; what is handed over are ids of the message, once
each, with the snapshots of the message. -/
def HandsOver (history : History γ) (event : Event γ σ) : Prop :=
  match event.occurrence with
  | .emittedLocally _ _ => True
  | .received message content =>
    (∀ id ∈ message.ids, id ∈ wokenIds (history.wake event message) ∨ ∃ time, history.delivered.get? id = some (content id, time)) ∧
    (wokenIds (history.wake event message)).Nodup ∧ ∀ id ∈ wokenIds (history.wake event message),
      id ∈ message.ids ∧ wokenSnapshot (history.wake event message) id = message.snapshot id

def UpToDate (history : History γ) : Prop := ∀ id, history.latest.get? id = (history.delivered.get? id).map Prod.fst

/-- An id of a message that was delivered within the TTL comes with the content that was delivered. -/
def OnlyEchoes (history : History γ) (event : Event γ σ) : Prop :=
  match event.occurrence with
  | .emittedLocally _ _ => True
  | .received message content => ∀ id ∈ message.ids, ∀ older time, history.delivered.get? id = some (older, time) →
      history.now event - time < dedupTtl → older = content id

/-- The stamps are the times of the deliveries, but for old ones. -/
structure Tracks (history : History γ) : Prop where
  stamped : ∀ id content time, history.delivered.get? id = some (content, time) → time ≤ history.clock ∧
    (history.seenAt.get? id = some time ∨ history.seenAt.get? id = none ∧ time < history.clock - dedupTtl)
  unstamped : ∀ id, history.delivered.get? id = none → history.seenAt.get? id = none

variable {history : History γ} {event : Event γ σ}

theorem clock_le_now (history : History γ) (event : Event γ σ) : history.clock ≤ history.now event := by
  have nonneg : (0 : ℚ) ≤ event.elapsed := event.elapsed.2
  exact le_add_of_nonneg_right nonneg

theorem Tracks.recent_iff (tracks : history.Tracks) (event : Event γ σ) (id : String) :
    Recent history.seenAt (history.now event) id ↔
      ∃ content time, history.delivered.get? id = some (content, time) ∧ history.now event - time < dedupTtl := by
  have later := clock_le_now history event
  constructor
  · intro recent
    have ⟨stamp, held, young⟩ := recent
    cases found : history.delivered.get? id with
    | none =>
      rw [tracks.unstamped id found] at held
      cases held
    | some delivery =>
      have ⟨content, time⟩ := delivery
      cases (tracks.stamped id content time found).2 with
      | inl same =>
        rw [same, Option.some_inj] at held
        exact ⟨content, time, rfl, held ▸ young⟩
      | inr gone =>
        rw [gone.1] at held
        cases held
  · intro delivered
    have ⟨content, time, found, young⟩ := delivered
    cases (tracks.stamped id content time found).2 with
    | inl same => exact ⟨time, same, young⟩
    | inr gone => linarith

theorem tracks_of_stamped (tracks : history.Tracks) {ids : List String} {seenAt : SeenAt} (latest : Dict String γ)
    (stamped : Stamped (history.now event) ids history.seenAt seenAt) (content : String → γ) :
    Tracks { clock := history.now event, seenAt := seenAt, latest := latest,
             delivered := setAll history.delivered ids fun id => (content id, history.now event) } := by
  have later := clock_le_now history event
  constructor
  · intro id held time found
    simp only [get?_setAll] at found ⊢
    by_cases member : id ∈ ids
    · rw [if_pos member] at found
      cases found
      exact ⟨le_rfl, Or.inl (stamped.fresh id member)⟩
    · rw [if_neg member] at found
      have ⟨past, before⟩ := tracks.stamped id held time found
      refine ⟨past.trans later, ?_⟩
      cases stamped.others id member with
      | inl same =>
        rw [same]
        cases before with
        | inl known => exact Or.inl known
        | inr gone => exact Or.inr ⟨gone.1, gone.2.trans_le (sub_le_sub_right later _)⟩
      | inr evicted =>
        have ⟨gone, stamp, known, old⟩ := evicted
        refine Or.inr ⟨gone, ?_⟩
        cases before with
        | inl same =>
          rw [same, Option.some_inj] at known
          exact known ▸ old
        | inr none_ =>
          rw [none_.1] at known
          cases known
  · intro id absent
    simp only [get?_setAll] at absent ⊢
    by_cases member : id ∈ ids
    · rw [if_pos member] at absent
      cases absent
    · rw [if_neg member] at absent
      have before := tracks.unstamped id absent
      cases stamped.others id member with
      | inl same => rw [same, before]
      | inr evicted => exact evicted.1

theorem Tracks.step (tracks : history.Tracks) (event : Event γ σ) : (history.step event).Tracks := by
  have later := clock_le_now history event
  unfold History.step
  split
  case h_1 signalId content _ =>
    split_ifs with empty
    · have moved := tracks_of_stamped tracks history.latest (stamped_refl (history.now event) history.seenAt) fun _ => content
      exact moved
    · have stamped : Stamped (history.now event) [signalId] history.seenAt (add (history.now event) signalId history.seenAt) := by
        unfold add
        rw [if_neg empty]
        apply Stamped.evict
        · intro id member
          rw [List.mem_singleton.1 member, Dict.get?_set, if_pos rfl]
        · intro id outside
          rw [Dict.get?_set, if_neg fun same => outside (List.mem_singleton.2 same.symm)]
      exact tracks_of_stamped tracks _ stamped fun _ => content
  case h_2 message content _ =>
    exact tracks_of_stamped tracks _ (bridge_spec (history.now event) message history.seenAt).stamped content

/-- The bridge hands a message over as it should exactly if it suppresses nothing but echoes. -/
theorem handsOver_iff (tracks : history.Tracks) (event : Event γ σ) : history.HandsOver event ↔ history.OnlyEchoes event := by
  unfold HandsOver OnlyEchoes
  split
  case h_1 => exact Iff.rfl
  case h_2 message content _ =>
    have bridged := bridge_spec (history.now event) message history.seenAt
    constructor
    · intro hands id member older time found young
      cases hands.1 id member with
      | inl woken => exact absurd ((tracks.recent_iff event id).2 ⟨older, time, found, young⟩) ((bridged.woken id).1 woken).2
      | inr same =>
        have ⟨other, held⟩ := same
        rw [found] at held
        cases held
        rfl
    · intro echoes
      refine ⟨fun id member => ?_, bridged.nodup, fun id woken => ⟨((bridged.woken id).1 woken).1, bridged.snapshots id woken⟩⟩
      by_cases recent : Recent history.seenAt (history.now event) id
      · have ⟨older, time, found, young⟩ := (tracks.recent_iff event id).1 recent
        exact Or.inr ⟨time, echoes id member older time found young ▸ found⟩
      · exact Or.inl ((bridged.woken id).2 ⟨member, recent⟩)

theorem upToDate_step (tracks : history.Tracks) (current : history.UpToDate) (echoes : history.OnlyEchoes event) : (history.step event).UpToDate := by
  have hands := (handsOver_iff tracks event).2 echoes
  unfold HandsOver at hands
  unfold History.step
  split at hands
  case h_1 signalId content same =>
    split_ifs
    · exact current
    · intro id
      simp only [Dict.get?_set]
      split
      · rfl
      · exact current id
  case h_2 message content same =>
    intro id
    simp only [get?_setAll]
    by_cases woken : id ∈ wokenIds (history.wake event message)
    · rw [if_pos woken, if_pos (hands.2.2 id woken).1, Option.map_some]
    · rw [if_neg woken]
      by_cases member : id ∈ message.ids
      · have ⟨time, found⟩ := (hands.1 id member).resolve_left woken
        rw [if_pos member, found, Option.map_some]
      · rw [if_neg member]
        exact current id

theorem tracks_start (clock : ℚ) : (start clock : History γ).Tracks :=
  ⟨fun _ _ _ found => (nomatch found), fun _ _ => rfl⟩

/-- Over any history the bridge hands each message over as it should, and is up to date throughout, exactly if every message suppresses
nothing but echoes. -/
theorem bridge_delivers_iff (clock : ℚ) (events : List (Event γ σ)) :
    Meets step HandsOver (start clock) events ∧ Always step UpToDate (start clock) events ↔ Meets step OnlyEchoes (start clock) events := by
  have hands : Meets step HandsOver (start clock) events ↔ Meets step OnlyEchoes (start clock) events :=
    meets_iff_meets (fun _ event tracks _ => Tracks.step tracks event) (fun _ event tracks => handsOver_iff tracks event) (tracks_start clock)
  constructor
  · exact fun both => hands.1 both.1
  · intro echoes
    refine ⟨hands.2 echoes, fun first inside => ?_⟩
    have always := @always_of_meets _ _ step OnlyEchoes (fun history : History γ => history.Tracks ∧ history.UpToDate)
      (fun _ event held echoes => ⟨held.1.step event, upToDate_step held.1 held.2 echoes⟩) _ _ ⟨tracks_start clock, fun _ => rfl⟩ echoes
    exact (always first inside).2

section Lane

variable {message : Message σ} {now : ℚ} {seenAt : SeenAt} {wake : Wake σ}

/-- The call of `publish_signal_batch` in `_wake_runtime_queue`, with the UUID and the time that the call takes. -/
def toCall (wake : Wake σ) (batchId now : String) : SignalCall σ where
  eventType := wake.header.eventType.getD ""
  source := wake.header.source
  signalIds := wake.signalIds
  trigger := (wake.header.trigger.filter fun trigger => trigger ≠ "").getD "signal_bus"
  emittedAt := wake.header.emittedAt
  signalSnapshots := (wake.signalSnapshots.getD []).foldl (fun snapshots entry => snapshots.set entry.1 entry.2) .empty
  batchId := batchId
  now := now

theorem normalizeSignalIds_plain {limit : ℕ} {known : SignalIds} {ids : List String} (plain : ∀ id ∈ ids, strip id = id ∧ id ≠ "")
    (apart : (known.ids ++ ids).Nodup) (few : (known.ids ++ ids).length ≤ limit) :
    (normalizeSignalIds limit known ids).ids = known.ids ++ ids := by
  induction ids generalizing known with
  | nil => rw [normalizeSignalIds, List.append_nil]
  | cons id rest ih =>
    have ⟨stripped, nonempty⟩ := plain id List.mem_cons_self
    have room : ¬ limit ≤ known.ids.length := by
      rw [List.length_append, List.length_cons] at few
      omega
    have fresh : id ∉ known.ids := by
      intro member
      exact (List.nodup_append'.1 apart).2.2 member List.mem_cons_self
    have added : (known.add id).ids = known.ids ++ [id] := by
      unfold SignalIds.add
      rw [dif_pos (by rw [stripped]; exact ⟨nonempty, fresh⟩)]
      exact congrArg (fun last => known.ids ++ [last]) stripped
    have joined : (known.add id).ids ++ rest = known.ids ++ id :: rest := by rw [added, List.append_assoc, List.singleton_append]
    rw [normalizeSignalIds, if_neg room, ih (fun other member => plain other (List.mem_cons_of_mem _ member)) (joined ▸ apart) (joined ▸ few), joined]

theorem plain_of_mem_ids {id : String} (member : id ∈ message.ids) : strip id = id ∧ id ≠ "" := by
  have stripped : ∃ raw, strip raw = id := by
    cases message with
    | emission header raw => exact ⟨raw, (List.mem_singleton.1 (List.mem_filter.1 member).1).symm⟩
    | batch header raw snapshots =>
      have ⟨text, _, same⟩ := List.mem_map.1 (List.mem_filter.1 member).1
      exact ⟨text, same⟩
  have ⟨raw, same⟩ := stripped
  have nonempty : id ≠ "" := by
    cases message with
    | emission => exact of_decide_eq_true (List.mem_filter.1 member).2
    | batch => exact of_decide_eq_true (List.mem_filter.1 member).2
  exact ⟨by rw [← same, strip_strip], nonempty⟩

/-- An actionable wake publishes one batch, of the very ids that the bridge let through. -/
theorem publishSignalBatch_toCall (lower : String → String) (queue : List (SignalBatch σ)) (handed : (bridge now message seenAt).2 = some wake)
    {id : String} (member : id ∈ wake.signalIds) (few : wake.signalIds.length ≤ 5000) (batchId time : String)
    (actionable : isActionableEvent (normalizeSource lower (toCall wake batchId time).eventType)
      (normalizeSource lower (toCall wake batchId time).trigger) = true) :
    ∃ kept batch, publishSignalBatch lower queue (toCall wake batchId time) = kept ++ [batch] ∧ batch.signalIds.ids = wake.signalIds := by
  have bridged := bridge_spec now message seenAt
  have woken : wokenIds (bridge now message seenAt).2 = wake.signalIds := by rw [handed]; rfl
  have plain : ∀ id ∈ wake.signalIds, strip id = id ∧ id ≠ "" := by
    intro id member
    rw [← woken] at member
    exact plain_of_mem_ids ((bridged.woken id).1 member).1
  have ids : (normalizeSignalIds 5000 noSignals wake.signalIds).ids = wake.signalIds :=
    normalizeSignalIds_plain plain (woken ▸ bridged.nodup) few
  have some_ : ¬ (normalizeSignalIds 5000 noSignals wake.signalIds).ids = [] := by
    rw [ids]
    exact List.ne_nil_of_mem member
  have published : ∃ batch, publishedBatch lower (toCall wake batchId time) = some batch ∧ batch.signalIds.ids = wake.signalIds := by
    unfold publishedBatch
    dsimp only
    rw [if_neg (by exact some_), if_pos actionable]
    exact ⟨_, rfl, ids⟩
  have ⟨batch, made, same⟩ := published
  unfold publishSignalBatch
  rw [made]
  exact ⟨_, batch, rfl, same⟩

end Lane

/-- A scanner emits a signal twice within the TTL, and the second time with a new price. -/
def quickUpdate : List (Event ℕ Unit) :=
  [⟨0, .received (.emission {} "s") fun _ => 1⟩, ⟨1 / 20, .received (.emission {} "s") fun _ => 2⟩]

/-- The update is neither handed over nor delivered. -/
theorem quickUpdate_suppressed :
    ¬ (Meets step HandsOver (start 0) quickUpdate ∧ Always step UpToDate (start 0) quickUpdate) := by
  intro delivers
  have current := delivers.2 quickUpdate List.prefix_rfl "s"
  revert current
  decide +kernel

end History

end Callisto.Signals.Bridge
