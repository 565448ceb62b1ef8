import Callisto.Ws.Payload
import Mathlib.Algebra.Order.Ring.Rat
import Mathlib.Tactic.Linarith

/-! The bridge that hands the signal messages of other processes to the runtime queue, and the ids it has seen of late. -/

namespace Callisto.Signals.Bridge

open Callisto.Library
open Callisto.Ws (strip)

/-- `_DEDUP_WINDOW_SIZE` -/
def dedupWindowSize : ℕ := 2048

/-- `_DEDUP_TTL_SECONDS` -/
def dedupTtl : ℚ := 1 / 10

/-- `_seen_at`: when each id was stamped last, in seconds of the monotonic clock. -/
abbrev SeenAt := Dict String ℚ

def Recent (seenAt : SeenAt) (now : ℚ) (signalId : String) : Prop := ∃ stamp, seenAt.get? signalId = some stamp ∧ now - stamp < dedupTtl

instance (seenAt : SeenAt) (now : ℚ) (signalId : String) : Decidable (Recent seenAt now signalId) := by
  unfold Recent
  cases seenAt.get? signalId with
  | none => exact isFalse (by simp)
  | some stamp => exact decidable_of_iff (now - stamp < dedupTtl) (by simp)

/-- `_evict_locked` -/
def evict (now : ℚ) (seenAt : SeenAt) : SeenAt :=
  if seenAt.entries.length ≤ dedupWindowSize then seenAt
  else
    { entries := seenAt.entries.filter fun entry => now - dedupTtl ≤ entry.2
      nodup := seenAt.nodup.sublist (List.filter_sublist.map _) }

def add (now : ℚ) (signalId : String) (seenAt : SeenAt) : SeenAt :=
  if signalId = "" then seenAt else evict now (seenAt.set signalId now)

def addIfUnseen (now : ℚ) (signalId : String) (seenAt : SeenAt) : SeenAt × Bool :=
  if signalId = "" then (seenAt, false)
  else if Recent seenAt now signalId then (seenAt, false)
  else (evict now (seenAt.set signalId now), true)

/-- The loop of `filter_unseen_and_add`, with the ids that it has let through. -/
def filterUnseen (now : ℚ) : List String → SeenAt → List String → SeenAt × List String
  | [], seenAt, unseen => (seenAt, unseen)
  | rawSignalId :: rest, seenAt, unseen =>
    let signalId := strip rawSignalId
    if signalId = "" ∨ signalId ∈ unseen then filterUnseen now rest seenAt unseen
    else if Recent seenAt now signalId then filterUnseen now rest seenAt unseen
    else filterUnseen now rest (seenAt.set signalId now) (unseen ++ [signalId])

def filterUnseenAndAdd (now : ℚ) (signalIds : List String) (seenAt : SeenAt) : SeenAt × List String :=
  if signalIds = [] then (seenAt, [])
  else
    let (stamped, unseen) := filterUnseen now signalIds seenAt []
    (evict now stamped, unseen)

/-- What a message says beside its ids, which is passed on as it is. -/
structure Header where
  eventType : Option String := none
  source : Option String := none
  trigger : Option String := none
  reason : Option String := none
  emittedAt : Option String := none
  deriving DecidableEq

/-- A call of `publish_signal_batch`. -/
structure Wake (σ : Type) where
  header : Header
  signalIds : List String
  signalSnapshots : Option (List (String × σ)) := none

/-- `_wake_runtime_queue`: without an id there is no call. -/
def wakeRuntimeQueue {σ : Type} (header : Header) (signalIds : List String) (signalSnapshots : Option (List (String × σ))) : Option (Wake σ) :=
  let ids := signalIds.filter fun signalId => signalId ≠ ""
  if ids = [] then none else some ⟨header, ids, signalSnapshots⟩

inductive Message (σ : Type) where
  | emission (header : Header) (signalId : String)
  | batch (header : Header) (signalIds : List String) (signalSnapshots : Option (Dict String σ))

/-- `_bridge_emission` -/
def bridgeEmission {σ : Type} (now : ℚ) (header : Header) (rawSignalId : String) (seenAt : SeenAt) : SeenAt × Option (Wake σ) :=
  let signalId := strip rawSignalId
  if signalId = "" then (seenAt, wakeRuntimeQueue header [] none)
  else
    match addIfUnseen now signalId seenAt with
    | (seenAt, false) => (seenAt, none)
    | (seenAt, true) => (seenAt, wakeRuntimeQueue header [signalId] none)

def snapshotsOf {σ : Type} (snapshots : Dict String σ) (signalIds : List String) : List (String × σ) :=
  signalIds.filterMap fun signalId => (snapshots.get? signalId).map fun snapshot => (signalId, snapshot)

/-- `_bridge_batch` -/
def bridgeBatch {σ : Type} (now : ℚ) (header : Header) (signalIdsRaw : List String) (signalSnapshots : Option (Dict String σ))
    (seenAt : SeenAt) : SeenAt × Option (Wake σ) :=
  let signalIds := signalIdsRaw.filter fun signalId => signalId ≠ ""
  if signalIds = [] then (seenAt, wakeRuntimeQueue header [] none)
  else
    match filterUnseenAndAdd now signalIds seenAt with
    | (seenAt, []) => (seenAt, none)
    | (seenAt, unseen) => (seenAt, wakeRuntimeQueue header unseen (signalSnapshots.map fun snapshots => snapshotsOf snapshots unseen))

def bridge {σ : Type} (now : ℚ) (message : Message σ) (seenAt : SeenAt) : SeenAt × Option (Wake σ) :=
  match message with
  | .emission header signalId => bridgeEmission now header signalId seenAt
  | .batch header signalIds signalSnapshots => bridgeBatch now header signalIds signalSnapshots seenAt

def Message.ids {σ : Type} : Message σ → List String
  | .emission _ signalId => [strip signalId].filter fun id => id ≠ ""
  | .batch _ signalIds _ => (signalIds.map strip).filter fun id => id ≠ ""

def Message.snapshot {σ : Type} : Message σ → String → Option σ
  | .emission _ _, _ => none
  | .batch _ _ signalSnapshots, signalId => signalSnapshots.bind fun snapshots => snapshots.get? signalId

def wokenIds {σ : Type} (wake : Option (Wake σ)) : List String := wake.elim [] Wake.signalIds

def wokenSnapshot {σ : Type} (wake : Option (Wake σ)) (signalId : String) : Option σ :=
  wake.bind fun call => call.signalSnapshots.bind fun snapshots => Dict.find signalId snapshots

variable {σ : Type} {now : ℚ} {seenAt : SeenAt} {signalId : String}

theorem get?_evict (seenAt : SeenAt) (now : ℚ) (signalId : String) :
    (evict now seenAt).get? signalId = seenAt.get? signalId ∨
      (evict now seenAt).get? signalId = none ∧ ∃ stamp, seenAt.get? signalId = some stamp ∧ stamp < now - dedupTtl := by
  unfold evict
  split
  case isTrue => exact Or.inl rfl
  case isFalse =>
    let kept : SeenAt :=
      { entries := seenAt.entries.filter fun entry => now - dedupTtl ≤ entry.2
        nodup := seenAt.nodup.sublist (List.filter_sublist.map _) }
    have known : ∀ stamp, kept.get? signalId = some stamp ↔ seenAt.get? signalId = some stamp ∧ now - dedupTtl ≤ stamp := by
      intro stamp
      constructor
      · intro found
        obtain ⟨inside, young⟩ := List.mem_filter.1 (Dict.mem_of_find found)
        exact ⟨Dict.get?_of_mem inside, of_decide_eq_true young⟩
      · intro found
        have member : (signalId, stamp) ∈ kept.entries := List.mem_filter.2 ⟨Dict.mem_of_find found.1, decide_eq_true found.2⟩
        exact Dict.get?_of_mem member
    change kept.get? signalId = seenAt.get? signalId ∨ kept.get? signalId = none ∧ _
    cases found : kept.get? signalId with
    | some stamp => exact Or.inl ((known stamp).1 found).1.symm
    | none =>
      cases held : seenAt.get? signalId with
      | none => exact Or.inl rfl
      | some stamp =>
        refine Or.inr ⟨rfl, stamp, rfl, ?_⟩
        by_contra young
        rw [(known stamp).2 ⟨held, not_lt.1 young⟩] at found
        cases found

/-- The stamps after some ids were stamped: theirs are new, and of the others only old ones may be gone. -/
structure Stamped (now : ℚ) (ids : List String) (before after : SeenAt) : Prop where
  fresh : ∀ id ∈ ids, after.get? id = some now
  others : ∀ id, id ∉ ids → after.get? id = before.get? id ∨
    after.get? id = none ∧ ∃ stamp, before.get? id = some stamp ∧ stamp < now - dedupTtl

theorem Stamped.evict {ids : List String} {before after : SeenAt} (fresh : ∀ id ∈ ids, after.get? id = some now)
    (others : ∀ id, id ∉ ids → after.get? id = before.get? id) : Stamped now ids before (evict now after) := by
  constructor
  · intro id member
    cases get?_evict after now id with
    | inl same => rw [same, fresh id member]
    | inr gone =>
      have ⟨_, stamp, held, old⟩ := gone
      rw [fresh id member, Option.some_inj] at held
      have positive : (0 : ℚ) < dedupTtl := by norm_num [dedupTtl]
      linarith
  · intro id outside
    rw [← others id outside]
    exact get?_evict after now id

/-- What the loop lets through: the new ids that are not recent, once each, stamped with the time. -/
structure Filters (now : ℚ) (ids : List String) (start : SeenAt) (result : SeenAt × List String) : Prop where
  nodup : result.2.Nodup
  unseen : ∀ id, id ∈ result.2 ↔ id ∈ ids ∧ ¬ Recent start now id
  fresh : ∀ id ∈ result.2, result.1.get? id = some now
  others : ∀ id, id ∉ result.2 → result.1.get? id = start.get? id

theorem recent_congr {before after : SeenAt} (same : after.get? signalId = before.get? signalId) :
    Recent after now signalId ↔ Recent before now signalId := by
  unfold Recent
  rw [same]

theorem filterUnseen_spec (raw : List String) {ids : List String} {start : SeenAt} {result : SeenAt × List String}
    (filters : Filters now ids start result) :
    Filters now (ids ++ (raw.map strip).filter fun id => id ≠ "") start (filterUnseen now raw result.1 result.2) := by
  induction raw generalizing ids result with
  | nil => simpa [filterUnseen] using filters
  | cons rawSignalId rest ih =>
    have split : ids ++ ((rawSignalId :: rest).map strip).filter (fun id => id ≠ "") =
        (ids ++ [strip rawSignalId].filter fun id => id ≠ "") ++ (rest.map strip).filter fun id => id ≠ "" := by
      rw [List.map_cons, ← List.singleton_append, List.filter_append, List.append_assoc]
    rw [split, filterUnseen]
    generalize strip rawSignalId = id
    by_cases empty : id = ""
    · rw [if_pos (Or.inl empty)]
      have none_ : ids ++ [id].filter (fun id => id ≠ "") = ids := by simp [empty]
      rw [none_]
      exact ih filters
    · have one : [id].filter (fun id => id ≠ "") = [id] := by simp [empty]
      rw [one]
      by_cases emitted : id ∈ result.2
      · rw [if_pos (Or.inr emitted)]
        apply ih
        constructor
        · exact filters.nodup
        · intro other
          rw [filters.unseen, List.mem_append, List.mem_singleton]
          have listed := (filters.unseen id).1 emitted
          constructor
          · exact fun both => ⟨Or.inl both.1, both.2⟩
          · intro both
            cases both.1 with
            | inl inside => exact ⟨inside, both.2⟩
            | inr same => exact same ▸ listed
        · exact filters.fresh
        · exact filters.others
      · have same : Recent result.1 now id ↔ Recent start now id := recent_congr (filters.others id emitted)
        rw [if_neg (not_or.2 ⟨empty, emitted⟩)]
        by_cases recent : Recent result.1 now id
        · rw [if_pos recent]
          apply ih
          constructor
          · exact filters.nodup
          · intro other
            rw [filters.unseen, List.mem_append, List.mem_singleton]
            constructor
            · exact fun both => ⟨Or.inl both.1, both.2⟩
            · intro both
              cases both.1 with
              | inl inside => exact ⟨inside, both.2⟩
              | inr equal => exact absurd (same.1 recent) (equal ▸ both.2)
          · exact filters.fresh
          · exact filters.others
        · rw [if_neg recent]
          refine ih (?_ : Filters now (ids ++ [id]) start (result.1.set id now, result.2 ++ [id]))
          constructor
          · exact List.nodup_append'.2 ⟨filters.nodup, List.nodup_singleton id, List.disjoint_singleton.2 emitted⟩
          · intro other
            rw [List.mem_append, List.mem_append, List.mem_singleton, filters.unseen]
            constructor
            · intro either
              cases either with
              | inl both => exact ⟨Or.inl both.1, both.2⟩
              | inr equal => exact ⟨Or.inr equal, equal ▸ fun old => recent (same.2 old)⟩
            · intro both
              cases both.1 with
              | inl inside => exact Or.inl ⟨inside, both.2⟩
              | inr equal => exact Or.inr equal
          · intro other member
            rw [Dict.get?_set]
            split
            · rfl
            case isFalse different =>
              cases List.mem_append.1 member with
              | inl old => exact filters.fresh other old
              | inr new => exact absurd (List.mem_singleton.1 new).symm different
          · intro other outside
            rw [List.mem_append, not_or, List.mem_singleton] at outside
            rw [Dict.get?_set, if_neg fun equal => outside.2 equal.symm]
            exact filters.others other outside.1

/-- What the bridge does with a message: each of its ids that is not recent wakes the queue once, with its snapshot, and is stamped. -/
structure Bridges (now : ℚ) (message : Message σ) (seenAt : SeenAt) (result : SeenAt × Option (Wake σ)) : Prop where
  nodup : (wokenIds result.2).Nodup
  woken : ∀ id, id ∈ wokenIds result.2 ↔ id ∈ message.ids ∧ ¬ Recent seenAt now id
  snapshots : ∀ id ∈ wokenIds result.2, wokenSnapshot result.2 id = message.snapshot id
  stamped : Stamped now (wokenIds result.2) seenAt result.1

theorem stamped_refl (now : ℚ) (seenAt : SeenAt) : Stamped now [] seenAt seenAt :=
  ⟨fun _ member => absurd member List.not_mem_nil, fun _ _ => Or.inl rfl⟩

theorem bridgeEmission_spec (now : ℚ) (header : Header) (raw : String) (seenAt : SeenAt) :
    Bridges now (Message.emission header raw : Message σ) seenAt (bridgeEmission now header raw seenAt) := by
  unfold bridgeEmission addIfUnseen
  dsimp only
  have ids : (Message.emission header raw : Message σ).ids = [strip raw].filter fun id => id ≠ "" := rfl
  by_cases empty : strip raw = ""
  · rw [if_pos empty]
    have none_ : (Message.emission header raw : Message σ).ids = [] := by simp [ids, empty]
    exact ⟨List.nodup_nil, fun id => by simp [wakeRuntimeQueue, wokenIds, none_],
      fun _ member => absurd member List.not_mem_nil, stamped_refl now seenAt⟩
  · have one : (Message.emission header raw : Message σ).ids = [strip raw] := by simp [ids, empty]
    rw [if_neg empty, if_neg empty]
    by_cases recent : Recent seenAt now (strip raw)
    · rw [if_pos recent]
      refine ⟨List.nodup_nil, fun id => ?_, fun _ member => absurd member List.not_mem_nil, stamped_refl now seenAt⟩
      rw [one, List.mem_singleton]
      constructor
      · exact fun member => absurd member List.not_mem_nil
      · exact fun both => absurd recent (both.1 ▸ both.2)
    · have wakes : (wakeRuntimeQueue header [strip raw] none : Option (Wake σ)) = some ⟨header, [strip raw], none⟩ := by
        simp [wakeRuntimeQueue, empty]
      rw [if_neg recent]
      dsimp only
      rw [wakes]
      constructor
      · exact List.nodup_singleton _
      · intro id
        rw [one]
        change id ∈ [strip raw] ↔ id ∈ [strip raw] ∧ _
        rw [List.mem_singleton]
        exact ⟨fun same => ⟨same, same ▸ recent⟩, fun both => both.1⟩
      · exact fun _ _ => rfl
      · apply Stamped.evict
        · intro id member
          rw [List.mem_singleton.1 member, Dict.get?_set, if_pos rfl]
        · intro id outside
          rw [Dict.get?_set, if_neg fun same => outside (List.mem_singleton.2 same.symm)]

theorem find_snapshotsOf (snapshots : Dict String σ) {ids : List String} {id : String} (member : id ∈ ids) :
    Dict.find id (snapshotsOf snapshots ids) = snapshots.get? id := by
  induction ids with
  | nil => exact absurd member List.not_mem_nil
  | cons head rest ih =>
    unfold snapshotsOf at ih ⊢
    rw [List.filterMap_cons]
    by_cases same : head = id
    · subst same
      cases found : snapshots.get? head with
      | some snapshot => simp [Dict.find]
      | none =>
        by_cases later : head ∈ rest
        · simpa [found] using ih later
        · simp only [Option.map_none]
          rw [Dict.find_eq_none_iff]
          intro listed
          obtain ⟨entry, inside, key⟩ := List.mem_map.1 listed
          obtain ⟨other, there, made⟩ := List.mem_filterMap.1 inside
          obtain ⟨snapshot, _, pair⟩ := Option.map_eq_some_iff.1 made
          rw [← pair] at key
          exact later (key ▸ there)
    · have tail : id ∈ rest := (List.mem_cons.1 member).resolve_left fun equal => same equal.symm
      cases snapshots.get? head with
      | none => simpa using ih tail
      | some snapshot => simpa [Dict.find, same] using ih tail

theorem bridgeBatch_spec (now : ℚ) (header : Header) (raw : List String) (snapshots : Option (Dict String σ)) (seenAt : SeenAt) :
    Bridges now (Message.batch header raw snapshots) seenAt (bridgeBatch now header raw snapshots seenAt) := by
  have same : ((raw.filter fun id => id ≠ "").map strip).filter (fun id => id ≠ "") = (Message.batch header raw snapshots).ids := by
    change _ = (raw.map strip).filter fun id => id ≠ ""
    induction raw with
    | nil => rfl
    | cons head rest ih =>
      by_cases empty : head = ""
      · have nothing : strip head = "" := by rw [empty]; decide
        rw [List.filter_cons_of_neg (by simpa using empty), ih, List.map_cons, List.filter_cons_of_neg (by simpa using nothing)]
      · rw [List.filter_cons_of_pos (by simpa using empty), List.map_cons, List.map_cons, List.filter_cons, List.filter_cons, ih]
  have begun : Filters now [] seenAt (seenAt, []) :=
    ⟨List.nodup_nil, fun id => by simp, fun _ member => absurd member List.not_mem_nil, fun _ _ => rfl⟩
  have filters := filterUnseen_spec (raw.filter fun id => id ≠ "") begun
  rw [List.nil_append, same] at filters
  unfold bridgeBatch filterUnseenAndAdd
  dsimp only at filters ⊢
  by_cases empty : (raw.filter fun id => id ≠ "") = []
  · rw [if_pos empty]
    rw [empty] at same
    exact ⟨List.nodup_nil, fun id => by simp [wakeRuntimeQueue, wokenIds, ← same],
      fun _ member => absurd member List.not_mem_nil, stamped_refl now seenAt⟩
  · rw [if_neg empty, if_neg empty]
    generalize filterUnseen now (raw.filter fun id => id ≠ "") seenAt [] = result at filters
    have ⟨stamps, unseen⟩ := result
    have stamped : Stamped now unseen seenAt (evict now stamps) := Stamped.evict filters.fresh filters.others
    cases unseen with
    | nil => exact ⟨List.nodup_nil, filters.unseen, fun _ member => absurd member List.not_mem_nil, stamped⟩
    | cons first rest =>
      have nonempty : ∀ id ∈ first :: rest, id ≠ "" := by
        intro id member
        have listed := ((filters.unseen id).1 member).1
        exact of_decide_eq_true (List.mem_filter.1 listed).2
      have wakes : (wakeRuntimeQueue header (first :: rest) (snapshots.map fun known => snapshotsOf known (first :: rest)) : Option (Wake σ)) =
          some ⟨header, first :: rest, snapshots.map fun known => snapshotsOf known (first :: rest)⟩ := by
        have all : (first :: rest).filter (fun id => id ≠ "") = first :: rest :=
          List.filter_eq_self.2 fun id member => by simpa using nonempty id member
        unfold wakeRuntimeQueue
        dsimp only
        rw [all, if_neg (List.cons_ne_nil _ _)]
      dsimp only
      rw [wakes]
      refine ⟨filters.nodup, filters.unseen, fun id member => ?_, stamped⟩
      cases snapshots with
      | none => rfl
      | some known => exact find_snapshotsOf known member

theorem bridge_spec (now : ℚ) (message : Message σ) (seenAt : SeenAt) : Bridges now message seenAt (bridge now message seenAt) := by
  cases message with
  | emission header signalId => exact bridgeEmission_spec now header signalId seenAt
  | batch header signalIds snapshots => exact bridgeBatch_spec now header signalIds snapshots seenAt

end Callisto.Signals.Bridge
