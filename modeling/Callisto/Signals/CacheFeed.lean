import Callisto.Signals.NoRedelivery

/-! The feed of the signal cache: rows are committed, delivered over the channel, and read and upserted by bootstraps, while traders consume. -/

namespace Callisto.Signals

open Callisto.Library
open Callisto.Ws (strip)

variable {lower : String → String}

/-- A committed state of a row: its place among all commits, the status as stored, and the snapshot that is built from it. -/
structure CommittedRow (lower : String → String) where
  version : ℕ
  status : String
  snapshot : SignalSnapshot lower
  normalized : snapshot.status = lower (strip (if status = "" then "pending" else status))
  deriving DecidableEq

/-- `_BOOTSTRAP_RECENT_UPDATE_WINDOW_SECONDS`, in microseconds. -/
def bootstrapRecentUpdateWindow : ℤ := 600 * 1000000

/-- `_BOOTSTRAP_MAX_ROWS` -/
def bootstrapMaxRows : ℕ := 10000

/-- The cache, the table and the commits, the versions delivered over the channel, the rows that each running bootstrap has still to upsert,
and the newest state of each row that has reached the cache. The marks of the history are all consumptions that the cache was told of. -/
structure CacheFeed (lower : String → String) where
  history : CacheHistory lower
  rows : Dict String (CommittedRow lower)
  commits : List (CommittedRow lower)
  published : Dict String ℕ
  bootstraps : List (List (CommittedRow lower))
  newest : Dict String (CommittedRow lower)

inductive FeedEvent (lower : String → String) where
  | commit (row : CommittedRow lower)
  | deliver (row : CommittedRow lower)
  | bootstrapRead (now : ℤ)
  | bootstrapStep (task : ℕ)
  | markConsumed (now : ℤ) (traderId signalId : String)
  | hydrateTraderConsumedIds (traderId : String) (signalIds : List String)

namespace CacheFeed

def new (maxEntries : ℕ) : CacheFeed lower := ⟨CacheHistory.new maxEntries, Dict.empty, [], Dict.empty, [], Dict.empty⟩

def cache (feed : CacheFeed lower) : SignalCache lower := feed.history.cache

/-- The query of `bootstrap_from_db`. -/
def bootstrapRows (feed : CacheFeed lower) (now : ℤ) : List (CommittedRow lower) :=
  (feed.rows.values.filter fun row => (row.status = "pending" ∨ ∃ updated ∈ row.snapshot.updatedAt, now - bootstrapRecentUpdateWindow ≤ updated) ∧
    row.snapshot.Live now).take bootstrapMaxRows

def newer (known : Option (CommittedRow lower)) (row : CommittedRow lower) : CommittedRow lower :=
  match known with
  | none => row
  | some known => if known.version < row.version then row else known

def storeRow (feed : CacheFeed lower) (row : CommittedRow lower) : CacheFeed lower :=
  { feed with
    history := feed.history.step (.upsert row.snapshot)
    newest := feed.newest.set row.snapshot.id (newer (feed.newest.get? row.snapshot.id) row) }

/-- `from_db_row` and `from_redis_payload` make no snapshot of a row with a blank source. -/
def upsertRow (feed : CacheFeed lower) (row : CommittedRow lower) : CacheFeed lower :=
  if row.snapshot.source = "" then feed else feed.storeRow row

def setReady (feed : CacheFeed lower) : CacheFeed lower := { feed with history := { feed.history with cache := feed.cache.markReady } }

def hydrated (traderId : String) (signalIds : List String) : List (String × String) :=
  if traderId = "" then [] else signalIds.map fun signalId => (traderId, signalId)

/-- A bootstrap upserts its next row, and marks the cache ready after its last. -/
def bootstrapStep (feed : CacheFeed lower) (task : ℕ) : CacheFeed lower :=
  match feed.bootstraps[task]? with
  | none => feed
  | some [] => { feed.setReady with bootstraps := feed.bootstraps.eraseIdx task }
  | some (row :: rest) => { feed.upsertRow row with bootstraps := feed.bootstraps.set task rest }

def step (feed : CacheFeed lower) : FeedEvent lower → CacheFeed lower
  | .commit row => { feed with rows := feed.rows.set row.snapshot.id row, commits := row :: feed.commits }
  | .deliver row => { feed.upsertRow row with published := feed.published.set row.snapshot.id row.version }
  | .bootstrapRead now => { feed with bootstraps := feed.bootstraps ++ [feed.bootstrapRows now] }
  | .bootstrapStep task => feed.bootstrapStep task
  | .markConsumed now traderId signalId => { feed with history := feed.history.step (.markConsumed now traderId signalId) }
  | .hydrateTraderConsumedIds traderId signalIds =>
    let hydration := feed.history.step (.hydrateTraderConsumedIds traderId signalIds)
    { feed with history := { hydration with marked := hydrated traderId signalIds ++ hydration.marked } }

/-- Commits are numbered in order and name at most `max_entries` signals; the channel delivers the states of one signal in
the order of their commits. -/
def Admissible (feed : CacheFeed lower) : FeedEvent lower → Prop
  | .commit row => row.version = feed.commits.length + 1 ∧ (feed.rows.set row.snapshot.id row).entries.length ≤ feed.cache.maxEntries
  | .deliver row => row ∈ feed.commits ∧ ∀ last, feed.published.get? row.snapshot.id = some last → last < row.version
  | _ => True

local instance lawfulMarks : LawfulBEq (String × String) := inferInstance

/-- The snapshots that a query is owed: cached, matching, and not consumed by its trader. -/
def owed (feed : CacheFeed lower) (query : SignalQuery) (now : ℤ) : List (SignalSnapshot lower) :=
  feed.cache.signals.values.filter fun snapshot => query.Matches now snapshot ∧ (query.traderId, snapshot.id) ∉ feed.history.marked

/-- A query is answered with what it is owed, in order and up to its limit. -/
def Answers (feed : CacheFeed lower) (query : SignalQuery) (now : ℤ) : Prop :=
  feed.cache.getUnconsumedSignals query now = ((feed.owed query now).insertionSort SignalSnapshot.NotAfter).take (max 1 query.limit).toNat

/-- Each signal that ever reached the cache is cached in its newest state. -/
def Fresh (feed : CacheFeed lower) : Prop :=
  ∀ signalId row, feed.newest.get? signalId = some row → feed.cache.signals.get? signalId = some row.snapshot

/-- The cache is fresh and, once ready, answers every query of every trader. -/
def Faithful (feed : CacheFeed lower) : Prop :=
  feed.Fresh ∧ (feed.cache.ready = true → ∀ query now, feed.Answers query now)

/-- A state that the cache skips is no news of its row, and one that it stores is not older than what it has. -/
def TakesRow (feed : CacheFeed lower) (row : CommittedRow lower) : Prop :=
  if feed.cache.Skips row.snapshot.id then
    ∃ known, feed.newest.get? row.snapshot.id = some known ∧ (row.version ≤ known.version ∨ known.snapshot = row.snapshot)
  else ∀ known, feed.newest.get? row.snapshot.id = some known → known.version < row.version ∨ known.snapshot = row.snapshot

/-- A row with a source is taken and, once the cache is ready, no mark is lost by storing it. -/
def UpsertsSafely (feed : CacheFeed lower) (row : CommittedRow lower) : Prop :=
  row.snapshot.source ≠ "" → feed.TakesRow row ∧ (feed.cache.ready = true → feed.history.LosesNoMark (.upsert row.snapshot))

/-- A bootstrap's next row is upserted safely, and after its last the sets hold all consumptions of cached signals. -/
def AdmitsBootstrapStep (feed : CacheFeed lower) (task : ℕ) : Prop :=
  match feed.bootstraps[task]? with
  | none => True
  | some [] => feed.history.KeepsMarks
  | some (row :: _) => feed.UpsertsSafely row

/-- The condition on one event: rows are upserted safely, the cache becomes ready while its sets hold all consumptions of cached signals,
and from then on no call loses one. -/
def Admits (feed : CacheFeed lower) : FeedEvent lower → Prop
  | .deliver row => feed.UpsertsSafely row
  | .bootstrapStep task => feed.AdmitsBootstrapStep task
  | .markConsumed now traderId signalId => feed.cache.ready = true → feed.history.LosesNoMark (.markConsumed now traderId signalId)
  | .hydrateTraderConsumedIds traderId signalIds => feed.cache.ready = true → feed.history.LosesNoMark (.hydrateTraderConsumedIds traderId signalIds)
  | _ => True

/-- Everything cached was delivered and is a row, everything on its way is a row, the rows are under their ids and fit, and
the sets hold only consumptions. -/
structure Sound (feed : CacheFeed lower) : Prop where
  delivered : ∀ signalId, feed.cache.Cached signalId → (feed.newest.get? signalId).isSome
  known : ∀ signalId, feed.cache.Cached signalId → (feed.rows.get? signalId).isSome
  committed : ∀ row ∈ feed.commits, (feed.rows.get? row.snapshot.id).isSome
  reading : ∀ rows ∈ feed.bootstraps, ∀ row ∈ rows, (feed.rows.get? row.snapshot.id).isSome
  named : feed.rows.All fun key row => row.snapshot.id = key
  fits : feed.rows.entries.length ≤ feed.cache.maxEntries
  consumed : ∀ traderId, ∀ signalId ∈ feed.cache.consumedBy traderId, (traderId, signalId) ∈ feed.history.marked

end CacheFeed

end Callisto.Signals
