import Mathlib.Data.Finset.Filter
import Callisto.Library.Lru
import Callisto.Ws.Payload

/-! The process-wide signal cache: snapshots in order of use, and what each trader has consumed. -/

namespace Callisto.Signals

open Callisto.Library
open Callisto.Ws (strip)

variable {lower : String → String}

/-- `SignalSnapshot`, the fields that the cache reads; times in microseconds. Both constructors normalise the status and refuse an empty id. -/
@[ext] structure SignalSnapshot (lower : String → String) where
  id : String
  source : String
  status : String
  runtimeSequence : Option ℤ
  createdAt : ℤ
  updatedAt : Option ℤ
  expiresAt : Option ℤ
  id_nonempty : id ≠ ""
  status_normalized : ∃ raw, status = lower (strip raw)

instance : DecidableEq (SignalSnapshot lower) := fun _ _ => decidable_of_iff _ SignalSnapshot.ext_iff.symm

def SignalSnapshot.Live (snapshot : SignalSnapshot lower) (now : ℤ) : Prop := ∀ expiry, snapshot.expiresAt = some expiry → now ≤ expiry

instance (snapshot : SignalSnapshot lower) (now : ℤ) : Decidable (snapshot.Live now) :=
  match found : snapshot.expiresAt with
  | none => isTrue fun expiry some_ => by rw [found] at some_; cases some_
  | some expiry => decidable_of_iff (now ≤ expiry) ⟨fun le other same => by rw [found] at same; cases same; exact le, fun live => live expiry found⟩

/-- `_CONSUMED_SET_PRUNE_THRESHOLD` -/
def consumedSetPruneThreshold : ℕ := 50000

/-- `_CONSUMED_SET_PRUNE_TERMINAL_CUTOFF_SECONDS`, in microseconds. -/
def consumedSetPruneTerminalCutoff : ℤ := 86400 * 1000000

def SignalSnapshot.Old (snapshot : SignalSnapshot lower) (now : ℤ) : Prop :=
  snapshot.updatedAt.getD snapshot.createdAt < now - consumedSetPruneTerminalCutoff

instance (snapshot : SignalSnapshot lower) (now : ℤ) : Decidable (snapshot.Old now) := inferInstanceAs (Decidable (_ < _))

/-- `SignalCache`, without its counters. -/
structure SignalCache (lower : String → String) where
  signals : Dict String (SignalSnapshot lower)
  maxEntries : ℕ
  consumedSet : Dict String (Finset String)
  ready : Bool
  named : signals.All fun key snapshot => snapshot.id = key

namespace SignalCache

def new (maxEntries : ℕ) : SignalCache lower := ⟨Dict.empty, maxEntries, Dict.empty, false, Dict.all_empty _⟩

/-- `self._consumed_set.get(trader_id) or frozenset()` -/
def consumedBy (cache : SignalCache lower) (traderId : String) : Finset String := (cache.consumedSet.get? traderId).getD ∅

def Skips (cache : SignalCache lower) (signalId : String) : Prop :=
  cache.consumedSet.values ≠ [] ∧ ∀ consumed ∈ cache.consumedSet.values, signalId ∈ consumed

instance (cache : SignalCache lower) (signalId : String) : Decidable (cache.Skips signalId) := inferInstanceAs (Decidable (_ ∧ _))

def upsert (cache : SignalCache lower) (snapshot : SignalSnapshot lower) : SignalCache lower :=
  if cache.Skips snapshot.id then cache
  else { cache with
    signals := Lru.store cache.maxEntries cache.signals snapshot.id snapshot
    named := fun _ member => match Lru.mem_store member with
      | Or.inl new => new ▸ rfl
      | Or.inr old => cache.named _ old.1 }

/-- The prune drops an id without a snapshot, and one whose snapshot is old. -/
def Droppable (cache : SignalCache lower) (now : ℤ) (signalId : String) : Prop :=
  ∀ snapshot, cache.signals.get? signalId = some snapshot → snapshot.Old now

instance (cache : SignalCache lower) (now : ℤ) (signalId : String) : Decidable (cache.Droppable now signalId) :=
  match found : cache.signals.get? signalId with
  | none => isTrue fun snapshot some_ => by rw [found] at some_; cases some_
  | some snapshot => decidable_of_iff (snapshot.Old now)
    ⟨fun old other same => by rw [found] at same; cases same; exact old, fun droppable => droppable snapshot found⟩

/-- `_lazy_prune_consumed_set` -/
def lazyPrune (cache : SignalCache lower) (now : ℤ) (consumed : Finset String) : Finset String :=
  consumed.filter fun signalId => ¬ cache.Droppable now signalId

def withConsumed (cache : SignalCache lower) (now : ℤ) (traderId signalId : String) : Finset String :=
  let consumed := insert signalId (cache.consumedBy traderId)
  if consumedSetPruneThreshold ≤ consumed.card then cache.lazyPrune now consumed else consumed

def markConsumed (cache : SignalCache lower) (now : ℤ) (traderId signalId : String) : SignalCache lower :=
  if traderId = "" ∨ signalId = "" then cache
  else if signalId ∈ cache.consumedBy traderId then cache
  else { cache with consumedSet := cache.consumedSet.set traderId (cache.withConsumed now traderId signalId) }

def ledgerIds (signalIds : List String) : Finset String := (signalIds.filter fun signalId => signalId ≠ "").toFinset

def hydrateTraderConsumedIds (cache : SignalCache lower) (traderId : String) (signalIds : List String) : SignalCache lower :=
  if traderId = "" then cache else { cache with consumedSet := cache.consumedSet.set traderId (ledgerIds signalIds) }

def markReady (cache : SignalCache lower) : SignalCache lower := { cache with ready := true }

end SignalCache

/-- The arguments of `get_unconsumed_signals`. -/
structure SignalQuery where
  traderId : String
  sources : Option (List String)
  cursorRuntimeSequence : Option ℤ
  statuses : Option (List String)
  limit : ℤ

namespace SignalQuery

/-- The statuses asked for, `pending` where none are given. -/
def normalizedStatuses (lower : String → String) (query : SignalQuery) : List String :=
  match query.statuses with
  | some statuses => statuses.map fun status => lower (strip status)
  | none => ["pending"]

def SourceAsked (lower : String → String) (query : SignalQuery) (source : String) : Prop :=
  ∀ sources, query.sources = some sources → lower source ∈ sources.map fun asked => lower (strip asked)

instance (query : SignalQuery) (source : String) : Decidable (query.SourceAsked lower source) :=
  match found : query.sources with
  | none => isTrue fun sources some_ => by rw [found] at some_; cases some_
  | some sources => decidable_of_iff (lower source ∈ sources.map fun asked => lower (strip asked))
    ⟨fun asked other same => by rw [found] at same; cases same; exact asked, fun asked => asked sources found⟩

def AboveCursor (query : SignalQuery) (runtimeSequence : Option ℤ) : Prop :=
  ∀ cursor, query.cursorRuntimeSequence = some cursor → ∀ sequence, runtimeSequence = some sequence → cursor < sequence

instance (query : SignalQuery) (runtimeSequence : Option ℤ) : Decidable (query.AboveCursor runtimeSequence) :=
  match cursorFound : query.cursorRuntimeSequence, sequenceFound : runtimeSequence with
  | none, _ => isTrue fun cursor some_ => by rw [cursorFound] at some_; cases some_
  | some _, none => isTrue fun _ _ sequence some_ => by cases some_
  | some cursor, some sequence => decidable_of_iff (cursor < sequence)
    ⟨fun above other same last lastSame => by rw [cursorFound] at same; cases same; cases lastSame; exact above,
      fun above => above cursor cursorFound sequence rfl⟩

def Matches (query : SignalQuery) (now : ℤ) (snapshot : SignalSnapshot lower) : Prop :=
  snapshot.status ∈ query.normalizedStatuses lower ∧ query.SourceAsked lower snapshot.source ∧
    query.AboveCursor snapshot.runtimeSequence ∧ snapshot.Live now

instance (query : SignalQuery) (now : ℤ) (snapshot : SignalSnapshot lower) : Decidable (query.Matches now snapshot) :=
  inferInstanceAs (Decidable (_ ∧ _))

end SignalQuery

variable {cache : SignalCache lower} {snapshot : SignalSnapshot lower}

/-- The sort key's order: sequence with none as zero, then creation time, then id. -/
def SignalSnapshot.NotAfter (first second : SignalSnapshot lower) : Prop :=
  first.runtimeSequence.getD 0 < second.runtimeSequence.getD 0 ∨ (first.runtimeSequence.getD 0 = second.runtimeSequence.getD 0 ∧
    (first.createdAt < second.createdAt ∨ (first.createdAt = second.createdAt ∧ ¬ second.id < first.id)))

instance (first second : SignalSnapshot lower) : Decidable (first.NotAfter second) := inferInstanceAs (Decidable (_ ∨ _))

namespace SignalCache

def unconsumed (cache : SignalCache lower) (query : SignalQuery) (now : ℤ) : List (SignalSnapshot lower) :=
  cache.signals.values.filter fun snapshot => query.Matches now snapshot ∧ snapshot.id ∉ cache.consumedBy query.traderId

def getUnconsumedSignals (cache : SignalCache lower) (query : SignalQuery) (now : ℤ) : List (SignalSnapshot lower) :=
  ((cache.unconsumed query now).insertionSort SignalSnapshot.NotAfter).take (max 1 query.limit).toNat

variable {now : ℤ}

theorem mem_unconsumed {query : SignalQuery} :
    snapshot ∈ cache.unconsumed query now ↔
      cache.signals.get? snapshot.id = some snapshot ∧ query.Matches now snapshot ∧ snapshot.id ∉ cache.consumedBy query.traderId := by
  unfold unconsumed
  rw [List.mem_filter, decide_eq_true_eq, Dict.values, List.mem_map]
  refine and_congr_left fun _ => ⟨?_, fun found => ?_⟩
  · intro stored
    obtain ⟨entry, member, same⟩ := stored
    have name : entry.2.id = entry.1 := cache.named entry member
    rw [← same, name]
    exact Dict.get?_of_mem member
  · exact ⟨(snapshot.id, snapshot), Dict.mem_of_find found, rfl⟩

theorem mem_of_returned {query : SignalQuery}
    (returned : snapshot ∈ cache.getUnconsumedSignals query now) : snapshot ∈ cache.unconsumed query now :=
  (List.mem_insertionSort _).1 (List.mem_of_mem_take returned)

theorem mem_returned_iff {query : SignalQuery}
    (fits : ((cache.unconsumed query now).length : ℤ) ≤ query.limit) :
    snapshot ∈ cache.getUnconsumedSignals query now ↔ snapshot ∈ cache.unconsumed query now := by
  have length := ((cache.unconsumed query now).perm_insertionSort SignalSnapshot.NotAfter).length_eq
  unfold getUnconsumedSignals
  rw [List.take_of_length_le (by omega), List.mem_insertionSort]

def askFor (traderId raw : String) (limit : ℤ) : SignalQuery := ⟨traderId, none, none, some [raw], limit⟩

theorem askFor_matches {traderId raw : String} {limit now : ℤ} (status : snapshot.status = lower (strip raw))
    (live : snapshot.Live now) : (askFor traderId raw limit).Matches now snapshot := by
  have asked : snapshot.status ∈ (askFor traderId raw limit).normalizedStatuses lower := by
    rw [status]
    exact List.mem_singleton.2 rfl
  have source : (askFor traderId raw limit).SourceAsked lower snapshot.source := fun sources none_ => by cases none_
  have cursor : (askFor traderId raw limit).AboveCursor snapshot.runtimeSequence := fun last none_ => by cases none_
  exact ⟨asked, source, cursor, live⟩

theorem exists_query {traderId : String}
    (found : cache.signals.get? snapshot.id = some snapshot) (live : snapshot.Live now) (fresh : snapshot.id ∉ cache.consumedBy traderId) :
    ∃ query : SignalQuery, query.traderId = traderId ∧ snapshot ∈ cache.getUnconsumedSignals query now := by
  obtain ⟨raw, status⟩ := snapshot.status_normalized
  have candidate : ∀ limit, snapshot ∈ cache.unconsumed (askFor traderId raw limit) now := fun limit =>
    mem_unconsumed.2 ⟨found, askFor_matches status live, fresh⟩
  let all := ((cache.unconsumed (askFor traderId raw 0) now).length : ℤ)
  exact ⟨askFor traderId raw all, rfl, (mem_returned_iff le_rfl).2 (candidate all)⟩

/-! What the calls do to the two parts of the cache. -/

theorem upsert_consumedSet (cache : SignalCache lower) (snapshot : SignalSnapshot lower) :
    (cache.upsert snapshot).consumedSet = cache.consumedSet := by
  unfold upsert
  by_cases skipped : cache.Skips snapshot.id
  · rw [if_pos skipped]
  · rw [if_neg skipped]

theorem upsert_consumedBy (cache : SignalCache lower) (snapshot : SignalSnapshot lower) (traderId : String) :
    (cache.upsert snapshot).consumedBy traderId = cache.consumedBy traderId := by
  unfold consumedBy
  rw [upsert_consumedSet]

theorem upsert_maxEntries (cache : SignalCache lower) (snapshot : SignalSnapshot lower) : (cache.upsert snapshot).maxEntries = cache.maxEntries := by
  unfold upsert
  by_cases skipped : cache.Skips snapshot.id
  · rw [if_pos skipped]
  · rw [if_neg skipped]

theorem upsert_ready (cache : SignalCache lower) (snapshot : SignalSnapshot lower) : (cache.upsert snapshot).ready = cache.ready := by
  unfold upsert
  by_cases skipped : cache.Skips snapshot.id
  · rw [if_pos skipped]
  · rw [if_neg skipped]

theorem upsert_skipped (skipped : cache.Skips snapshot.id) :
    cache.upsert snapshot = cache := by
  unfold upsert
  rw [if_pos skipped]

theorem upsert_signals (stored : ¬ cache.Skips snapshot.id) :
    (cache.upsert snapshot).signals = Lru.store cache.maxEntries cache.signals snapshot.id snapshot := by
  unfold upsert
  rw [if_neg stored]

theorem of_upsert {snapshot held : SignalSnapshot lower} {key : String} (stored : ¬ cache.Skips snapshot.id)
    (found : (cache.upsert snapshot).signals.get? key = some held) :
    (key = snapshot.id ∧ held = snapshot) ∨ (key ≠ snapshot.id ∧ cache.signals.get? key = some held) := by
  rw [upsert_signals stored] at found
  rcases Lru.mem_store (Dict.mem_of_find found) with new | old
  · exact Or.inl ⟨congrArg Prod.fst new, congrArg Prod.snd new⟩
  · exact Or.inr ⟨old.2, Dict.get?_of_mem old.1⟩

theorem upsert_finds (stored : ¬ cache.Skips snapshot.id) (room : 0 < cache.maxEntries) :
    (cache.upsert snapshot).signals.get? snapshot.id = some snapshot := by
  rw [upsert_signals stored]
  exact Dict.get?_of_mem (Lru.mem_store_self room cache.signals snapshot.id snapshot)

theorem upsert_without_room (stored : ¬ cache.Skips snapshot.id)
    (noRoom : cache.maxEntries = 0) (key : String) : (cache.upsert snapshot).signals.get? key = none := by
  have empty : (cache.upsert snapshot).signals.entries = [] := by
    rw [upsert_signals stored, noRoom]
    exact Lru.store_zero _ _ _
  unfold Dict.get?
  rw [empty]
  rfl

theorem markConsumed_cases (cache : SignalCache lower) (now : ℤ) (traderId signalId : String) :
    cache.markConsumed now traderId signalId = cache ∨ (traderId ≠ "" ∧ signalId ≠ "" ∧ signalId ∉ cache.consumedBy traderId ∧
      cache.markConsumed now traderId signalId =
        { cache with consumedSet := cache.consumedSet.set traderId (cache.withConsumed now traderId signalId) }) := by
  unfold markConsumed
  by_cases unnamed : traderId = "" ∨ signalId = ""
  · exact Or.inl (if_pos unnamed)
  · rw [if_neg unnamed]
    by_cases known : signalId ∈ cache.consumedBy traderId
    · exact Or.inl (if_pos known)
    · rw [if_neg known]
      exact Or.inr ⟨fun empty => unnamed (Or.inl empty), fun empty => unnamed (Or.inr empty), known, rfl⟩

theorem markConsumed_signals (cache : SignalCache lower) (now : ℤ) (traderId signalId : String) :
    (cache.markConsumed now traderId signalId).signals = cache.signals := by
  rcases cache.markConsumed_cases now traderId signalId with same | changed
  · rw [same]
  · rw [changed.2.2.2]

theorem hydrate_cases (cache : SignalCache lower) (traderId : String) (signalIds : List String) :
    (traderId = "" ∧ cache.hydrateTraderConsumedIds traderId signalIds = cache) ∨ (traderId ≠ "" ∧
      cache.hydrateTraderConsumedIds traderId signalIds = { cache with consumedSet := cache.consumedSet.set traderId (ledgerIds signalIds) }) := by
  unfold hydrateTraderConsumedIds
  by_cases unnamed : traderId = ""
  · exact Or.inl ⟨unnamed, if_pos unnamed⟩
  · exact Or.inr ⟨unnamed, if_neg unnamed⟩

theorem hydrate_signals (cache : SignalCache lower) (traderId : String) (signalIds : List String) :
    (cache.hydrateTraderConsumedIds traderId signalIds).signals = cache.signals := by
  rcases cache.hydrate_cases traderId signalIds with same | changed
  · rw [same.2]
  · rw [changed.2]

theorem hydrate_consumedBy {traderId : String} (trader : traderId ≠ "") (signalIds : List String) (other : String) :
    (cache.hydrateTraderConsumedIds traderId signalIds).consumedBy other =
      if traderId = other then ledgerIds signalIds else cache.consumedBy other := by
  unfold hydrateTraderConsumedIds consumedBy
  rw [if_neg trader]
  change ((cache.consumedSet.set traderId (ledgerIds signalIds)).get? other).getD ∅ = _
  rw [Dict.get?_set]
  by_cases same : traderId = other
  · rw [if_pos same, if_pos same]
    rfl
  · rw [if_neg same, if_neg same]

theorem markConsumed_consumedBy {traderId signalId : String} (trader : traderId ≠ "") (signal : signalId ≠ "")
    (fresh : signalId ∉ cache.consumedBy traderId) (now : ℤ) (other : String) :
    (cache.markConsumed now traderId signalId).consumedBy other =
      if traderId = other then cache.withConsumed now traderId signalId else cache.consumedBy other := by
  unfold markConsumed
  rw [if_neg (fun unnamed => unnamed.elim trader signal), if_neg fresh]
  change ((cache.consumedSet.set traderId (cache.withConsumed now traderId signalId)).get? other).getD ∅ = _
  rw [Dict.get?_set]
  by_cases same : traderId = other
  · rw [if_pos same, if_pos same]
    rfl
  · rw [if_neg same, if_neg same]
    rfl

theorem mem_ledgerIds {signalIds : List String} {signalId : String} (named : signalId ≠ "") :
    signalId ∈ ledgerIds signalIds ↔ signalId ∈ signalIds := by
  simp [ledgerIds, named]

theorem mem_lazyPrune {consumed : Finset String} {signalId : String} :
    signalId ∈ cache.lazyPrune now consumed ↔ signalId ∈ consumed ∧ ¬ cache.Droppable now signalId := by
  unfold lazyPrune
  rw [Finset.mem_filter]

theorem mem_withConsumed {traderId signalId other : String} :
    other ∈ cache.withConsumed now traderId signalId ↔ (other = signalId ∨ other ∈ cache.consumedBy traderId) ∧
      (consumedSetPruneThreshold ≤ (insert signalId (cache.consumedBy traderId)).card → ¬ cache.Droppable now other) := by
  unfold withConsumed
  by_cases full : consumedSetPruneThreshold ≤ (insert signalId (cache.consumedBy traderId)).card
  · rw [if_pos full, mem_lazyPrune, Finset.mem_insert]
    exact and_congr_right fun _ => ⟨fun kept _ => kept, fun kept => kept full⟩
  · rw [if_neg full, Finset.mem_insert]
    exact ⟨fun member => ⟨member, fun reached => absurd reached full⟩, fun member => member.1⟩

end SignalCache

end Callisto.Signals
