import Callisto.Signals.CacheFeed

/-! The cache is a faithful fast path exactly while the skip rule hides no news, no older state is stored over a newer one, and no mark is lost. -/

namespace Callisto.Signals

open Callisto.Library

variable {lower : String → String}

namespace CacheFeed

variable {feed : CacheFeed lower} {row : CommittedRow lower}

/-- While the sets hold only consumptions, all queries are answered exactly when they hold every consumption of a cached signal. -/
theorem answers_iff_keepsMarks (sound : feed.Sound) :
    (∀ query now, feed.Answers query now) ↔ feed.history.KeepsMarks := by
  rw [← CacheHistory.noRedelivery_iff_keepsMarks]
  constructor
  · intro answers mark member query now asker snapshot returned name
    have answer : feed.cache.getUnconsumedSignals query now = _ := answers query now
    rw [show feed.history.cache = feed.cache from rfl, answer] at returned
    have owed := (List.mem_insertionSort _).1 (List.mem_of_mem_take returned)
    have unconsumed := (of_decide_eq_true (List.mem_filter.1 owed).2).2
    rw [asker, name] at unconsumed
    exact unconsumed member
  · intro never query now
    have keeps := CacheHistory.noRedelivery_iff_keepsMarks.1 never
    have same : feed.cache.unconsumed query now = feed.owed query now := by
      refine List.filter_congr fun snapshot member => decide_eq_decide.2 (and_congr_right fun _ => not_congr ?_)
      refine ⟨sound.consumed _ _, fun marked => keeps _ marked ?_⟩
      rw [Dict.values, List.mem_map] at member
      obtain ⟨entry, stored, equal⟩ := member
      have name : entry.2.id = entry.1 := feed.cache.named entry stored
      rw [← equal, name]
      exact SignalCache.cached_of_get? (Dict.get?_of_mem stored)
    unfold Answers SignalCache.getUnconsumedSignals
    rw [same]

theorem get?_upsert (sound : feed.Sound) (isRow : (feed.rows.get? row.snapshot.id).isSome)
    (stored : ¬ feed.cache.Skips row.snapshot.id) (other : String) :
    (feed.cache.upsert row.snapshot).signals.get? other = if row.snapshot.id = other then some row.snapshot else feed.cache.signals.get? other := by
  rw [SignalCache.upsert_signals stored]
  refine Lru.get?_store ((Lru.length_le fun key found => ?_).trans sound.fits) other
  rw [Lru.get?_moveToEnd, Dict.get?_set] at found
  by_cases same : row.snapshot.id = key
  · exact same ▸ isRow
  · rw [if_neg same] at found
    exact sound.known key found

theorem cached_of_upsert {signalId : String}
    (cached : (feed.cache.upsert row.snapshot).Cached signalId) : row.snapshot.id = signalId ∨ feed.cache.Cached signalId := by
  by_cases skipped : feed.cache.Skips row.snapshot.id
  · rw [SignalCache.upsert_skipped skipped] at cached
    exact Or.inr cached
  · obtain ⟨held, name, found⟩ := cached.snapshot
    rcases SignalCache.of_upsert skipped found with new | old
    · exact Or.inl (new.1.symm.trans name)
    · exact Or.inr (name ▸ SignalCache.cached_of_get? old.2)

theorem newest_storeRow (feed : CacheFeed lower) (row : CommittedRow lower) (signalId : String) : (feed.storeRow row).newest.get? signalId =
    if row.snapshot.id = signalId then some (newer (feed.newest.get? row.snapshot.id) row) else feed.newest.get? signalId :=
  Dict.get?_set _ _ _ _

theorem sound_storeRow {feed : CacheFeed lower} (sound : feed.Sound) {row : CommittedRow lower} (isRow : (feed.rows.get? row.snapshot.id).isSome) :
    (feed.storeRow row).Sound where
  delivered signalId cached := by
    rw [newest_storeRow]
    by_cases same : row.snapshot.id = signalId
    · rw [if_pos same]
      rfl
    · rw [if_neg same]
      exact sound.delivered signalId ((cached_of_upsert cached).resolve_left same)
  known signalId cached := by
    rcases cached_of_upsert cached with same | old
    · exact same ▸ isRow
    · exact sound.known signalId old
  committed := sound.committed
  reading := sound.reading
  named := sound.named
  fits := (feed.cache.upsert_maxEntries row.snapshot).symm ▸ sound.fits
  consumed traderId signalId member := by
    have before : signalId ∈ feed.cache.consumedBy traderId := by
      rw [← feed.cache.upsert_consumedBy row.snapshot]
      exact member
    exact sound.consumed traderId signalId before

theorem newer_snapshot_iff {known row : CommittedRow lower} :
    row.snapshot = (newer (some known) row).snapshot ↔ known.version < row.version ∨ known.snapshot = row.snapshot := by
  unfold newer
  by_cases news : known.version < row.version
  · simp only [if_pos news]
    exact iff_of_true trivial (Or.inl news)
  · simp only [if_neg news]
    exact ⟨fun same => Or.inr same.symm, fun taken => (taken.resolve_left news).symm⟩

theorem known_snapshot_iff {known row : CommittedRow lower} :
    known.snapshot = (newer (some known) row).snapshot ↔ row.version ≤ known.version ∨ known.snapshot = row.snapshot := by
  unfold newer
  by_cases news : known.version < row.version
  · simp only [if_pos news]
    exact ⟨Or.inr, fun taken => taken.resolve_left (Nat.not_le.2 news)⟩
  · simp only [if_neg news]
    exact iff_of_true trivial (Or.inl (Nat.not_lt.1 news))

theorem fresh_storeRow (sound : feed.Sound) (isRow : (feed.rows.get? row.snapshot.id).isSome)
    (fresh : feed.Fresh) : (feed.storeRow row).Fresh ↔ feed.TakesRow row := by
  have others (signals : ∀ signalId, row.snapshot.id ≠ signalId →
    (feed.storeRow row).cache.signals.get? signalId = feed.cache.signals.get? signalId) :
      (feed.storeRow row).Fresh ↔
        (feed.storeRow row).cache.signals.get? row.snapshot.id = some (newer (feed.newest.get? row.snapshot.id) row).snapshot := by
    constructor
    · intro held
      refine held row.snapshot.id _ ?_
      rw [newest_storeRow, if_pos rfl]
    · intro own signalId other found
      rw [newest_storeRow] at found
      by_cases same : row.snapshot.id = signalId
      · rw [if_pos same, Option.some.injEq] at found
        rw [← same, ← found]
        exact own
      · rw [if_neg same] at found
        rw [signals signalId same]
        exact fresh signalId other found
  unfold TakesRow
  by_cases skipped : feed.cache.Skips row.snapshot.id
  · have cache : (feed.storeRow row).cache = feed.cache := SignalCache.upsert_skipped skipped
    rw [others fun _ _ => by rw [cache], cache, if_pos skipped]
    cases found : feed.newest.get? row.snapshot.id with
    | none =>
      have absent : feed.cache.signals.get? row.snapshot.id = none := by
        by_contra present
        have delivered := sound.delivered row.snapshot.id (Option.isSome_iff_ne_none.2 present)
        rw [found] at delivered
        cases delivered
      rw [absent]
      exact iff_of_false nofun fun taken => by obtain ⟨known, none_, -⟩ := taken; cases none_
    | some known =>
      rw [fresh _ _ found, Option.some.injEq, known_snapshot_iff]
      exact ⟨fun taken => ⟨known, rfl, taken⟩, fun taken => by obtain ⟨other, same, rest⟩ := taken; cases same; exact rest⟩
  · have signals : ∀ signalId, (feed.storeRow row).cache.signals.get? signalId = _ := get?_upsert sound isRow skipped
    rw [others fun signalId different => by rw [signals, if_neg different], signals, if_pos rfl, if_neg skipped, Option.some.injEq]
    cases found : feed.newest.get? row.snapshot.id with
    | none => exact iff_of_true rfl fun known none_ => by cases none_
    | some known =>
      rw [newer_snapshot_iff]
      exact ⟨fun taken other same => by cases same; exact taken, fun taken => taken known rfl⟩

theorem faithful_iff (sound : feed.Sound) :
    feed.Faithful ↔ feed.Fresh ∧ (feed.cache.ready = true → feed.history.KeepsMarks) :=
  and_congr_right fun _ => imp_congr_right fun _ => answers_iff_keepsMarks sound

@[simp] theorem rows_upsertRow (feed : CacheFeed lower) (row : CommittedRow lower) : (feed.upsertRow row).rows = feed.rows := by
  unfold upsertRow
  split_ifs <;> rfl

theorem sound_upsertRow (sound : feed.Sound) (isRow : (feed.rows.get? row.snapshot.id).isSome) : (feed.upsertRow row).Sound := by
  unfold upsertRow
  split_ifs
  · exact sound
  · exact sound_storeRow sound isRow

theorem faithful_upsertRow (sound : feed.Sound) (isRow : (feed.rows.get? row.snapshot.id).isSome)
    (faithful : feed.Faithful) : (feed.upsertRow row).Faithful ↔ feed.UpsertsSafely row := by
  unfold upsertRow UpsertsSafely
  split_ifs with blank
  · exact iff_of_true faithful (absurd blank)
  rw [imp_iff_right blank]
  have before := (faithful_iff sound).1 faithful
  rw [faithful_iff (sound_storeRow sound isRow), fresh_storeRow sound isRow before.1]
  have ready : (feed.storeRow row).cache.ready = feed.cache.ready := feed.cache.upsert_ready row.snapshot
  rw [ready]
  exact and_congr_right fun _ => imp_congr_right fun isReady => CacheHistory.keepsMarks_step (before.2 isReady) _

theorem faithful_congr {first second : CacheFeed lower} (history : first.history = second.history) (newest : first.newest = second.newest) :
    first.Faithful ↔ second.Faithful := by
  have cache : first.cache = second.cache := congrArg CacheHistory.cache history
  unfold Faithful Fresh Answers owed
  rw [cache, newest, history]

theorem get?_commit_isSome (row : CommittedRow lower) {signalId : String} (known : (feed.rows.get? signalId).isSome) :
    ((feed.rows.set row.snapshot.id row).get? signalId).isSome := by
  rw [Dict.get?_set]
  by_cases same : row.snapshot.id = signalId
  · rw [if_pos same]
    rfl
  · rwa [if_neg same]

theorem isRow_of_reading (sound : feed.Sound) {rest : List (CommittedRow lower)} {task : ℕ}
    (found : feed.bootstraps[task]? = some (row :: rest)) : (feed.rows.get? row.snapshot.id).isSome :=
  sound.reading _ (List.mem_of_getElem? found) row List.mem_cons_self

theorem Sound.withBootstraps (sound : feed.Sound) {bootstraps : List (List (CommittedRow lower))}
    (fewer : ∀ rows ∈ bootstraps, ∀ row ∈ rows, (feed.rows.get? row.snapshot.id).isSome) : { feed with bootstraps := bootstraps }.Sound :=
  { sound with reading := fewer }

theorem sound_setReady {feed : CacheFeed lower} (sound : feed.Sound) : feed.setReady.Sound := { sound with }

theorem bootstrapRows_isRow {feed : CacheFeed lower} (sound : feed.Sound) {now : ℤ} (read : row ∈ feed.bootstrapRows now) :
    (feed.rows.get? row.snapshot.id).isSome := by
  have member : row ∈ feed.rows.values := (List.mem_filter.1 (List.mem_of_mem_take read)).1
  rw [Dict.values, List.mem_map] at member
  obtain ⟨entry, stored, same⟩ := member
  have name : entry.2.snapshot.id = entry.1 := sound.named entry stored
  rw [← same, name, Dict.get?_of_mem stored]
  rfl

theorem sound_commit {feed : CacheFeed lower} (sound : feed.Sound) {row : CommittedRow lower} (admissible : feed.Admissible (.commit row)) :
    (feed.step (.commit row)).Sound where
  delivered := sound.delivered
  known signalId cached := get?_commit_isSome row (sound.known signalId cached)
  committed other member := by
    rcases List.mem_cons.1 member with new | old
    · rw [new]
      change (Dict.get? (feed.rows.set row.snapshot.id row) row.snapshot.id).isSome
      rw [Dict.get?_set, if_pos rfl]
      rfl
    · exact get?_commit_isSome row (sound.committed other old)
  reading rows member other read := get?_commit_isSome row (sound.reading rows member other read)
  named := sound.named.set rfl
  fits := admissible.2
  consumed := sound.consumed

theorem sound_markConsumed (sound : feed.Sound) (now : ℤ) (traderId signalId : String) :
    (feed.step (.markConsumed now traderId signalId)).Sound := by
  have cached (other : String) : (feed.step (.markConsumed now traderId signalId)).cache.Cached other → feed.cache.Cached other :=
    (SignalCache.cached_congr (feed.cache.markConsumed_signals now traderId signalId) other).1
  have fits : (feed.cache.markConsumed now traderId signalId).maxEntries = feed.cache.maxEntries := by
    rcases feed.cache.markConsumed_cases now traderId signalId with same | changed
    · rw [same]
    · rw [changed.2.2.2]
  refine ⟨fun other held => sound.delivered other (cached other held), fun other held => sound.known other (cached other held),
    sound.committed, sound.reading, sound.named, fits.symm ▸ sound.fits, fun trader other member => ?_⟩
  rcases feed.cache.markConsumed_cases now traderId signalId with same | changed
  · have before : other ∈ feed.cache.consumedBy trader := by
      rw [← same]
      exact member
    exact List.mem_cons_of_mem _ (sound.consumed trader other before)
  · have after : other ∈ (feed.cache.markConsumed now traderId signalId).consumedBy trader := member
    rw [SignalCache.markConsumed_consumedBy changed.1 changed.2.1 changed.2.2.1] at after
    by_cases own : traderId = trader
    · rw [if_pos own, SignalCache.mem_withConsumed] at after
      rcases after.1 with new | old
      · rw [new, ← own]
        exact List.mem_cons_self
      · exact List.mem_cons_of_mem _ (own ▸ sound.consumed traderId other old)
    · rw [if_neg own] at after
      exact List.mem_cons_of_mem _ (sound.consumed trader other after)

theorem sound_hydrate (sound : feed.Sound) (traderId : String) (signalIds : List String) :
    (feed.step (.hydrateTraderConsumedIds traderId signalIds)).Sound := by
  have cached (other : String) : (feed.step (.hydrateTraderConsumedIds traderId signalIds)).cache.Cached other → feed.cache.Cached other :=
    (SignalCache.cached_congr (feed.cache.hydrate_signals traderId signalIds) other).1
  have fits : (feed.cache.hydrateTraderConsumedIds traderId signalIds).maxEntries = feed.cache.maxEntries := by
    rcases feed.cache.hydrate_cases traderId signalIds with same | changed
    · rw [same.2]
    · rw [changed.2]
  refine ⟨fun other held => sound.delivered other (cached other held), fun other held => sound.known other (cached other held),
    sound.committed, sound.reading, sound.named, fits.symm ▸ sound.fits, fun trader other member => List.mem_append.2 ?_⟩
  have after : other ∈ (feed.cache.hydrateTraderConsumedIds traderId signalIds).consumedBy trader := member
  rcases feed.cache.hydrate_cases traderId signalIds with same | changed
  · rw [same.2] at after
    exact Or.inr (sound.consumed trader other after)
  · rw [SignalCache.hydrate_consumedBy changed.1] at after
    by_cases own : traderId = trader
    · rw [if_pos own, SignalCache.ledgerIds, List.mem_toFinset, List.mem_filter] at after
      rw [hydrated, if_neg changed.1, ← own]
      exact Or.inl (List.mem_map.2 ⟨other, after.1, rfl⟩)
    · rw [if_neg own] at after
      exact Or.inr (sound.consumed trader other after)

theorem sound_step (sound : feed.Sound) {event : FeedEvent lower} (admissible : feed.Admissible event) : (feed.step event).Sound := by
  cases event with
  | commit row => exact sound_commit sound admissible
  | deliver row => exact { sound_upsertRow sound (sound.committed row admissible.1) with }
  | bootstrapRead now =>
    refine sound.withBootstraps fun rows member row read => ?_
    rcases List.mem_append.1 member with old | new
    · exact sound.reading rows old row read
    · exact bootstrapRows_isRow sound (List.mem_singleton.1 new ▸ read)
  | bootstrapStep task =>
    change (feed.bootstrapStep task).Sound
    unfold bootstrapStep
    split
    next => exact sound
    next => exact (sound_setReady sound).withBootstraps fun rows member => sound.reading rows (List.mem_of_mem_eraseIdx member)
    next row rest found =>
      refine (sound_upsertRow sound (isRow_of_reading sound found)).withBootstraps fun rows member other read => ?_
      rw [rows_upsertRow]
      rcases List.mem_or_eq_of_mem_set member with old | new
      · exact sound.reading rows old other read
      · exact sound.reading _ (List.mem_of_getElem? found) other (List.mem_cons_of_mem _ (new ▸ read))
  | markConsumed now traderId signalId => exact sound_markConsumed sound now traderId signalId
  | hydrateTraderConsumedIds traderId signalIds => exact sound_hydrate sound traderId signalIds

theorem keepsMarks_hydrated (feed : CacheFeed lower) (traderId : String) (signalIds : List String) :
    (feed.step (.hydrateTraderConsumedIds traderId signalIds)).history.KeepsMarks ↔
      (feed.history.step (.hydrateTraderConsumedIds traderId signalIds)).KeepsMarks := by
  have supplied : ∀ mark ∈ hydrated traderId signalIds, (feed.cache.hydrateTraderConsumedIds traderId signalIds).Keeps mark.1 mark.2 := by
    intro mark member cached
    by_cases trader : traderId = ""
    · rw [hydrated, if_pos trader] at member
      exact absurd member List.not_mem_nil
    · rw [hydrated, if_neg trader, List.mem_map] at member
      obtain ⟨signalId, inLedger, same⟩ := member
      rw [← same] at cached ⊢
      rw [SignalCache.hydrate_consumedBy trader, if_pos rfl, SignalCache.mem_ledgerIds cached.named]
      exact inLedger
  constructor
  · intro kept mark member
    exact kept mark (List.mem_append_right _ member)
  · intro kept mark member
    rcases List.mem_append.1 member with new | old
    · exact supplied mark new
    · exact kept mark old

theorem markConsumed_ready (cache : SignalCache lower) (now : ℤ) (traderId signalId : String) :
    (cache.markConsumed now traderId signalId).ready = cache.ready := by
  rcases cache.markConsumed_cases now traderId signalId with same | changed
  · rw [same]
  · rw [changed.2.2.2]

theorem hydrate_ready (cache : SignalCache lower) (traderId : String) (signalIds : List String) :
    (cache.hydrateTraderConsumedIds traderId signalIds).ready = cache.ready := by
  rcases cache.hydrate_cases traderId signalIds with same | changed
  · rw [same.2]
  · rw [changed.2]

/-- A call that leaves the snapshots as they are keeps the cache faithful exactly when it loses no mark, once the cache is ready. -/
theorem faithful_call {feed after : CacheFeed lower} {call : CacheCall lower} (sound : feed.Sound) (soundAfter : after.Sound)
    (faithful : feed.Faithful)
    (newest : after.newest = feed.newest) (signals : after.cache.signals = feed.cache.signals) (ready : after.cache.ready = feed.cache.ready)
    (marks : after.history.KeepsMarks ↔ (feed.history.step call).KeepsMarks) :
    after.Faithful ↔ (feed.cache.ready = true → feed.history.LosesNoMark call) := by
  have before := (faithful_iff sound).1 faithful
  have fresh : after.Fresh := by
    unfold Fresh
    rw [newest, signals]
    exact before.1
  rw [faithful_iff soundAfter, ready, and_iff_right fresh]
  exact imp_congr_right fun isReady => marks.trans (CacheHistory.keepsMarks_step (before.2 isReady) call)

theorem faithful_setReady (sound : feed.Sound) (faithful : feed.Faithful) : feed.setReady.Faithful ↔ feed.history.KeepsMarks := by
  rw [faithful_iff (sound_setReady sound)]
  exact ⟨fun held => held.2 rfl, fun keeps => ⟨faithful.1, fun _ => keeps⟩⟩

theorem faithful_step (sound : feed.Sound) (faithful : feed.Faithful) {event : FeedEvent lower} (admissible : feed.Admissible event) :
    (feed.step event).Faithful ↔ feed.Admits event := by
  cases event with
  | commit row => exact iff_of_true ((@faithful_congr _ _ feed rfl rfl).2 faithful) trivial
  | deliver row =>
    exact (@faithful_congr _ _ (feed.upsertRow row) rfl rfl).trans (faithful_upsertRow sound (sound.committed row admissible.1) faithful)
  | bootstrapRead now => exact iff_of_true ((@faithful_congr _ _ feed rfl rfl).2 faithful) trivial
  | bootstrapStep task =>
    change (feed.bootstrapStep task).Faithful ↔ feed.AdmitsBootstrapStep task
    unfold bootstrapStep AdmitsBootstrapStep
    split
    next => exact iff_of_true faithful trivial
    next => exact (@faithful_congr _ _ feed.setReady rfl rfl).trans (faithful_setReady sound faithful)
    next row rest found =>
      exact (@faithful_congr _ _ (feed.upsertRow row) rfl rfl).trans (faithful_upsertRow sound (isRow_of_reading sound found) faithful)
  | markConsumed now traderId signalId =>
    exact faithful_call sound (sound_markConsumed sound now traderId signalId) faithful rfl (feed.cache.markConsumed_signals now traderId signalId)
      (markConsumed_ready feed.cache now traderId signalId) Iff.rfl
  | hydrateTraderConsumedIds traderId signalIds =>
    exact faithful_call sound (sound_hydrate sound traderId signalIds) faithful rfl (feed.cache.hydrate_signals traderId signalIds)
      (hydrate_ready feed.cache traderId signalIds) (keepsMarks_hydrated feed traderId signalIds)

theorem sound_new (maxEntries : ℕ) : (new maxEntries : CacheFeed lower).Sound where
  delivered _ cached := absurd cached nofun
  known _ cached := absurd cached nofun
  committed _ member := absurd member List.not_mem_nil
  reading _ member := absurd member List.not_mem_nil
  named := Dict.all_empty _
  fits := Nat.zero_le _
  consumed _ _ member := absurd member (Finset.notMem_empty _)

theorem faithful_new (maxEntries : ℕ) : (new maxEntries : CacheFeed lower).Faithful := by
  have fresh : (new maxEntries : CacheFeed lower).Fresh := fun signalId row found => absurd found nofun
  exact ⟨fresh, fun isReady => absurd isReady Bool.false_ne_true⟩

/-- The cache is faithful throughout a run exactly when every event of the run is admitted. -/
theorem faithful_iff_admits (maxEntries : ℕ) (events : List (FeedEvent lower)) (admissible : Runs.Meets step Admissible (new maxEntries) events) :
    Runs.Always step Faithful (new maxEntries) events ↔ Runs.Meets step Admits (new maxEntries) events :=
  Runs.always_iff_meets_within (fun _ _ sound admissible _ => sound_step sound admissible)
    (fun _ _ sound admissible faithful => faithful_step sound faithful admissible) (sound_new maxEntries) (faithful_new maxEntries) admissible

def pendingRow : CommittedRow id := ⟨1, "pending", CacheHistory.pendingSignal, by decide⟩

/-- One trader's ledger is hydrated, and the signal that it has consumed is bootstrapped after it. -/
def lateTrader : List (FeedEvent id) :=
  [.commit pendingRow, .hydrateTraderConsumedIds "t1" ["s1"], .bootstrapRead 0, .bootstrapStep 0, .bootstrapStep 0]

theorem admissible_lateTrader : Runs.Meets step Admissible (new 10000) lateTrader :=
  ⟨⟨rfl, by decide⟩, trivial, trivial, trivial, trivial, trivial⟩

/-- The pending signal reached the cache, which is ready and has nothing for a trader it has not seen before. -/
theorem lateTrader_denied : Runs.Meets step Admissible (new 10000) lateTrader ∧
    (Runs.run step (new 10000) lateTrader).newest.get? "s1" = some pendingRow ∧
    (Runs.run step (new 10000) lateTrader).cache.signals.get? "s1" = none ∧ (Runs.run step (new 10000) lateTrader).cache.ready = true ∧
    (Runs.run step (new 10000) lateTrader).cache.getUnconsumedSignals ⟨"t2", none, none, none, 200⟩ 0 = [] ∧
    ¬ Runs.Always step Faithful (new 10000) lateTrader := by
  have delivered : (Runs.run step (new 10000) lateTrader).newest.get? "s1" = some pendingRow := by decide +kernel
  have missing : (Runs.run step (new 10000) lateTrader).cache.signals.get? "s1" = none := by decide +kernel
  refine ⟨admissible_lateTrader, delivered, missing, by decide +kernel, by decide +kernel, fun always => ?_⟩
  have held := (always lateTrader List.prefix_rfl).1 "s1" pendingRow delivered
  rw [missing] at held
  cases held

theorem faithful_iff_admits_lateTrader : Runs.Always step Faithful (new 10000) lateTrader ↔ Runs.Meets step Admits (new 10000) lateTrader :=
  faithful_iff_admits 10000 lateTrader admissible_lateTrader

end CacheFeed

end Callisto.Signals
