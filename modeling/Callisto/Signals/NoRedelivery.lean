import Callisto.Library.Runs
import Callisto.Signals.SignalCache

/-! A consumed signal stays away from its trader exactly while no call loses the mark of a signal that the cache holds. -/

namespace Callisto.Signals

open Callisto.Library

variable {lower : String → String}

namespace SignalCache

def Cached (cache : SignalCache lower) (signalId : String) : Prop := (cache.signals.get? signalId).isSome

instance (cache : SignalCache lower) (signalId : String) : Decidable (cache.Cached signalId) := inferInstanceAs (Decidable (_ = _))

theorem cached_of_get? {cache : SignalCache lower} {signalId : String} {snapshot : SignalSnapshot lower}
    (found : cache.signals.get? signalId = some snapshot) : cache.Cached signalId := by
  unfold Cached
  rw [found]
  rfl

theorem Cached.snapshot {cache : SignalCache lower} {signalId : String} (cached : cache.Cached signalId) :
    ∃ snapshot : SignalSnapshot lower, snapshot.id = signalId ∧ cache.signals.get? snapshot.id = some snapshot := by
  have found := Option.some_get cached
  have name := cache.named.of_get? found.symm
  exact ⟨_, name, name.symm ▸ found.symm⟩

theorem Cached.named {cache : SignalCache lower} {signalId : String} (cached : cache.Cached signalId) : signalId ≠ "" := by
  obtain ⟨snapshot, name, -⟩ := cached.snapshot
  exact name ▸ snapshot.id_nonempty

theorem cached_congr {first second : SignalCache lower} (same : first.signals = second.signals) (signalId : String) :
    first.Cached signalId ↔ second.Cached signalId := by
  unfold Cached
  rw [same]

/-- A mark is kept: while its signal is cached, the trader's set holds it. -/
def Keeps (cache : SignalCache lower) (traderId signalId : String) : Prop := cache.Cached signalId → signalId ∈ cache.consumedBy traderId

/-- No call of a trader, whatever it asks for and whenever, returns the signal. -/
def NeverReturns (cache : SignalCache lower) (traderId signalId : String) : Prop :=
  ∀ (query : SignalQuery) (now : ℤ), query.traderId = traderId → ∀ snapshot ∈ cache.getUnconsumedSignals query now, snapshot.id ≠ signalId

theorem neverReturns_iff_keeps {cache : SignalCache lower} {traderId signalId : String} :
    cache.NeverReturns traderId signalId ↔ cache.Keeps traderId signalId := by
  constructor
  · intro never cached
    by_contra fresh
    obtain ⟨snapshot, name, found⟩ := cached.snapshot
    have live : snapshot.Live (snapshot.expiresAt.getD 0) := by
      intro expiry expires
      rw [expires, Option.getD_some]
    have askable := exists_query found live (name.symm ▸ fresh)
    obtain ⟨query, asker, returned⟩ := askable
    exact never query _ asker snapshot returned name
  · intro keeps query now asker snapshot returned name
    have candidate := mem_unconsumed.1 (mem_of_returned returned)
    have cached : cache.Cached signalId := name ▸ cached_of_get? candidate.1
    have consumed := keeps cached
    rw [← name, ← asker] at consumed
    exact candidate.2.2 consumed

end SignalCache

/-- A cache with what its callers have done: the marks, and what the ledger queries returned. -/
structure CacheHistory (lower : String → String) where
  cache : SignalCache lower
  marked : List (String × String)
  ledgers : List (String × List String)

/-- A call at a clock reading; the ledger query is what a later hydration supplies. -/
inductive CacheCall (lower : String → String) where
  | upsert (snapshot : SignalSnapshot lower)
  | markConsumed (now : ℤ) (traderId signalId : String)
  | queryLedger (traderId : String) (signalIds : List String)
  | hydrateTraderConsumedIds (traderId : String) (signalIds : List String)
  | getUnconsumedSignals (query : SignalQuery) (now : ℤ)

namespace CacheHistory

variable {history : CacheHistory lower}

def new (maxEntries : ℕ) : CacheHistory lower := ⟨SignalCache.new maxEntries, [], []⟩

def step (history : CacheHistory lower) : CacheCall lower → CacheHistory lower
  | .upsert snapshot => { history with cache := history.cache.upsert snapshot }
  | .markConsumed now traderId signalId =>
    { history with cache := history.cache.markConsumed now traderId signalId, marked := (traderId, signalId) :: history.marked }
  | .queryLedger traderId signalIds => { history with ledgers := (traderId, signalIds) :: history.ledgers }
  | .hydrateTraderConsumedIds traderId signalIds => { history with cache := history.cache.hydrateTraderConsumedIds traderId signalIds }
  | .getUnconsumedSignals _ _ => history

/-- A query returns the trader's complete ledger, and hydration supplies what some query has returned. -/
def Admissible (history : CacheHistory lower) : CacheCall lower → Prop
  | .queryLedger traderId signalIds => ∀ signalId, signalId ≠ "" → (traderId, signalId) ∈ history.marked → signalId ∈ signalIds
  | .hydrateTraderConsumedIds traderId signalIds => (traderId, signalIds) ∈ history.ledgers
  | _ => True

def NoRedelivery (history : CacheHistory lower) : Prop := ∀ mark ∈ history.marked, history.cache.NeverReturns mark.1 mark.2

/-- The mark enters the trader's set and fills it, so that it is pruned. -/
def Prunes (history : CacheHistory lower) (traderId signalId : String) : Prop :=
  traderId ≠ "" ∧ signalId ≠ "" ∧ signalId ∉ history.cache.consumedBy traderId ∧
    consumedSetPruneThreshold ≤ (insert signalId (history.cache.consumedBy traderId)).card

/-- The call loses no mark of a signal that is cached: a stored snapshot is still in the set of each trader that marked it, a mark is of
a named trader, a prune finds no old snapshot of a marked signal, and a hydration's ledger holds every mark whose signal is cached. -/
def LosesNoMark (history : CacheHistory lower) : CacheCall lower → Prop
  | .upsert snapshot => history.cache.Skips snapshot.id ∨ history.cache.maxEntries = 0 ∨
      ∀ mark ∈ history.marked, mark.2 = snapshot.id → snapshot.id ∈ history.cache.consumedBy mark.1
  | .markConsumed now traderId signalId => (traderId = "" → history.cache.Keeps traderId signalId) ∧
      (history.Prunes traderId signalId → ∀ mark ∈ (traderId, signalId) :: history.marked, mark.1 = traderId →
        history.cache.Cached mark.2 → ¬ history.cache.Droppable now mark.2)
  | .hydrateTraderConsumedIds traderId signalIds => traderId ≠ "" →
      ∀ mark ∈ history.marked, mark.1 = traderId → history.cache.Cached mark.2 → mark.2 ∈ signalIds
  | _ => True

def KeepsMarks (history : CacheHistory lower) : Prop := ∀ mark ∈ history.marked, history.cache.Keeps mark.1 mark.2

theorem noRedelivery_iff_keepsMarks : history.NoRedelivery ↔ history.KeepsMarks :=
  forall₂_congr fun _ _ => SignalCache.neverReturns_iff_keeps

theorem keepsMarks_upsert (held : history.KeepsMarks) (snapshot : SignalSnapshot lower) :
    (history.step (.upsert snapshot)).KeepsMarks ↔ history.LosesNoMark (.upsert snapshot) := by
  by_cases skipped : history.cache.Skips snapshot.id
  · have same : history.step (.upsert snapshot) = history := by
      simp only [step, SignalCache.upsert, if_pos skipped]
    rw [same]
    exact iff_of_true held (Or.inl skipped)
  constructor
  · intro kept
    by_cases room : history.cache.maxEntries = 0
    · exact Or.inr (Or.inl room)
    · refine Or.inr (Or.inr fun mark member name => ?_)
      have cached := SignalCache.cached_of_get? (SignalCache.upsert_finds skipped (Nat.pos_of_ne_zero room))
      have consumed := kept mark member (name ▸ cached)
      rwa [name, step, SignalCache.upsert_consumedBy] at consumed
  · intro ok mark member cached
    obtain ⟨held_, name, found⟩ := cached.snapshot
    rw [step, SignalCache.upsert_consumedBy]
    rcases SignalCache.of_upsert skipped found with new | old
    · rcases ok with skips | noRoom | inSet
      · exact absurd skips skipped
      · have none_ := SignalCache.upsert_without_room skipped noRoom held_.id
        exact absurd (found.symm.trans none_) nofun
      · have same : mark.2 = snapshot.id := name ▸ new.1
        rw [same]
        exact inSet mark member same
    · exact held mark member (name ▸ SignalCache.cached_of_get? old.2)

theorem keepsMarks_markConsumed (held : history.KeepsMarks) (now : ℤ) (traderId signalId : String) :
    (history.step (.markConsumed now traderId signalId)).KeepsMarks ↔ history.LosesNoMark (.markConsumed now traderId signalId) := by
  have signals := SignalCache.markConsumed_signals history.cache now traderId signalId
  have unchanged (same : history.cache.markConsumed now traderId signalId = history.cache) :
      (history.step (.markConsumed now traderId signalId)).KeepsMarks ↔ history.cache.Keeps traderId signalId := by
    change (∀ mark ∈ (traderId, signalId) :: history.marked, (history.cache.markConsumed now traderId signalId).Keeps mark.1 mark.2) ↔ _
    rw [same, List.forall_mem_cons]
    exact and_iff_left held
  have noPrune (not : ¬ history.Prunes traderId signalId) :
      history.LosesNoMark (.markConsumed now traderId signalId) ↔ (traderId = "" → history.cache.Keeps traderId signalId) :=
    and_iff_left fun prunes => absurd prunes not
  by_cases trader : traderId = ""
  · have same : history.cache.markConsumed now traderId signalId = history.cache := by
      rw [SignalCache.markConsumed, if_pos (Or.inl trader)]
    rw [unchanged same, noPrune fun prunes => prunes.1 trader]
    exact ⟨fun kept _ => kept, fun kept => kept trader⟩
  by_cases signal : signalId = ""
  · have same : history.cache.markConsumed now traderId signalId = history.cache := by
      rw [SignalCache.markConsumed, if_pos (Or.inr signal)]
    rw [unchanged same, noPrune fun prunes => prunes.2.1 signal]
    exact iff_of_true (fun cached => absurd signal cached.named) fun unnamed => absurd unnamed trader
  by_cases known : signalId ∈ history.cache.consumedBy traderId
  · have same : history.cache.markConsumed now traderId signalId = history.cache := by
      rw [SignalCache.markConsumed, if_neg (fun unnamed => unnamed.elim trader signal), if_pos known]
    rw [unchanged same, noPrune fun prunes => prunes.2.2.1 known]
    exact iff_of_true (fun _ => known) fun unnamed => absurd unnamed trader
  have consumedBy := SignalCache.markConsumed_consumedBy trader signal known now
  constructor
  · intro kept
    refine ⟨fun unnamed => absurd unnamed trader, fun prunes mark member own cached => ?_⟩
    have consumed := kept mark member ((SignalCache.cached_congr signals mark.2).2 cached)
    rw [step, consumedBy, if_pos own.symm, SignalCache.mem_withConsumed] at consumed
    exact consumed.2 prunes.2.2.2
  · intro ok mark member cached
    have cachedBefore := (SignalCache.cached_congr signals mark.2).1 cached
    rw [step, consumedBy]
    by_cases own : traderId = mark.1
    · rw [if_pos own, SignalCache.mem_withConsumed]
      have inSet : mark.2 = signalId ∨ mark.2 ∈ history.cache.consumedBy traderId := by
        rcases List.mem_cons.1 member with new | old
        · exact Or.inl (congrArg Prod.snd new)
        · exact Or.inr (own ▸ held mark old cachedBefore)
      exact ⟨inSet, fun full => ok.2 ⟨trader, signal, known, full⟩ mark member own.symm cachedBefore⟩
    · rw [if_neg own]
      rcases List.mem_cons.1 member with new | old
      · exact absurd (congrArg Prod.fst new).symm own
      · exact held mark old cachedBefore

theorem keepsMarks_hydrate (held : history.KeepsMarks) (traderId : String) (signalIds : List String) :
    (history.step (.hydrateTraderConsumedIds traderId signalIds)).KeepsMarks ↔
      history.LosesNoMark (.hydrateTraderConsumedIds traderId signalIds) := by
  by_cases trader : traderId = ""
  · have same : history.step (.hydrateTraderConsumedIds traderId signalIds) = history := by
      simp only [step, SignalCache.hydrateTraderConsumedIds, if_pos trader]
    rw [same]
    exact iff_of_true held fun named => absurd trader named
  have signals := SignalCache.hydrate_signals history.cache traderId signalIds
  have consumedBy := @SignalCache.hydrate_consumedBy _ history.cache _ trader signalIds
  constructor
  · intro kept _ mark member own cached
    have consumed := kept mark member ((SignalCache.cached_congr signals mark.2).2 cached)
    rw [step, consumedBy, if_pos own.symm, SignalCache.mem_ledgerIds cached.named] at consumed
    exact consumed
  · intro ok mark member cached
    have cachedBefore := (SignalCache.cached_congr signals mark.2).1 cached
    rw [step, consumedBy]
    by_cases own : traderId = mark.1
    · rw [if_pos own, SignalCache.mem_ledgerIds cached.named]
      exact ok trader mark member own.symm cachedBefore
    · rw [if_neg own]
      exact held mark member cachedBefore

theorem keepsMarks_step (held : history.KeepsMarks) (call : CacheCall lower) :
    (history.step call).KeepsMarks ↔ history.LosesNoMark call := by
  cases call with
  | upsert snapshot => exact keepsMarks_upsert held snapshot
  | markConsumed now traderId signalId => exact keepsMarks_markConsumed held now traderId signalId
  | queryLedger traderId signalIds => exact iff_of_true held trivial
  | hydrateTraderConsumedIds traderId signalIds => exact keepsMarks_hydrate held traderId signalIds
  | getUnconsumedSignals query now => exact iff_of_true held trivial

/-- A marked signal is never returned again, throughout a run, exactly when no call of the run loses a mark. -/
theorem noRedelivery_iff (maxEntries : ℕ) (calls : List (CacheCall lower)) (admissible : Runs.Meets step Admissible (new maxEntries) calls) :
    Runs.Always step NoRedelivery (new maxEntries) calls ↔ Runs.Meets step LosesNoMark (new maxEntries) calls := by
  have start : (new maxEntries : CacheHistory lower).NoRedelivery := fun _ member => absurd member List.not_mem_nil
  refine @Runs.always_iff_meets_within _ _ step Admissible LosesNoMark (fun _ => True) NoRedelivery (fun _ _ _ _ _ => trivial)
    (fun history call _ _ held => ?_) _ _ trivial start admissible
  rw [noRedelivery_iff_keepsMarks] at held ⊢
  exact keepsMarks_step held call

def pendingSignal : SignalSnapshot id := ⟨"s1", "arbitrage", "pending", some 1, 0, none, none, by decide, "pending", by decide⟩

/-- The ledger query of a hydration runs before the mark, and its answer arrives after it. -/
def staleHydration : List (CacheCall id) :=
  [.queryLedger "t1" [], .upsert pendingSignal, .markConsumed 0 "t1" "s1", .hydrateTraderConsumedIds "t1" []]

theorem admissible_staleHydration : Runs.Meets step Admissible (new 10000) staleHydration :=
  ⟨fun _ _ member => absurd member List.not_mem_nil, trivial, trivial, List.mem_singleton.2 rfl, trivial⟩

theorem redelivers_staleHydration : Runs.Meets step Admissible (new 10000) staleHydration ∧
    ("t1", "s1") ∈ (Runs.run step (new 10000) staleHydration).marked ∧
    pendingSignal ∈ (Runs.run step (new 10000) staleHydration).cache.getUnconsumedSignals ⟨"t1", none, none, none, 200⟩ 0 ∧
    ¬ Runs.Always step NoRedelivery (new 10000) staleHydration := by
  have marked : ("t1", "s1") ∈ (Runs.run step (new 10000) staleHydration).marked := by decide +kernel
  have returned : pendingSignal ∈ (Runs.run step (new 10000) staleHydration).cache.getUnconsumedSignals ⟨"t1", none, none, none, 200⟩ 0 := by
    decide +kernel
  refine ⟨admissible_staleHydration, marked, returned, fun always => ?_⟩
  exact always staleHydration List.prefix_rfl _ marked _ 0 rfl pendingSignal returned rfl

theorem noRedelivery_iff_staleHydration : Runs.Always step NoRedelivery (new 10000) staleHydration ↔
    Runs.Meets step LosesNoMark (new 10000) staleHydration := noRedelivery_iff 10000 staleHydration admissible_staleHydration

end CacheHistory

end Callisto.Signals
