import Callisto.Backtest.FillTimes
import Callisto.Library.Simulation

/-! Two matching engines that differ only in their time and in books that no order at rest looks at. An
advance to one snapshot does the same to both. -/

namespace Callisto.Backtest

open Callisto.Library Callisto.Library.Runs

namespace MatchingEngine

variable {config : MatchingConfig} {engine other next : MatchingEngine} {snapshot : BookSnapshot} {token : String}
  {books : Dict String ResidualBook} {now : Option Instant} {order : BacktestOrder} {produced : List Fill}

def rebook (engine : MatchingEngine) (books : Dict String ResidualBook) (now : Option Instant) : MatchingEngine :=
  { engine with books := books, now := now }

@[simp] theorem put_rebook (order : BacktestOrder) : (engine.rebook books now).put order = (engine.put order).rebook books now :=
  rfl

@[simp] theorem putBook_rebook (book : ResidualBook) : (engine.rebook books now).putBook book =
    (engine.putBook book).rebook (books.set book.snapshot.tokenId book) now := rfl

@[simp] theorem terminate_rebook (order : BacktestOrder) (state : OrderState) :
    (engine.rebook books now).terminate order state = (engine.terminate order state).rebook books now := by
  unfold terminate
  split_ifs
  · rfl
  · rfl

@[simp] theorem removeFromWorking_rebook (order : BacktestOrder) :
    (engine.rebook books now).removeFromWorking order = (engine.removeFromWorking order).rebook books now := by
  have same : (engine.rebook books now).working order.tokenId = engine.working order.tokenId := rfl
  unfold removeFromWorking
  rw [same]
  split_ifs
  · rfl
  · rfl

@[simp] theorem addToWorking_rebook (order : BacktestOrder) :
    (engine.rebook books now).addToWorking order = (engine.addToWorking order).rebook books now := by
  have same : (engine.rebook books now).working order.tokenId = engine.working order.tokenId := rfl
  unfold addToWorking
  rw [same]
  split_ifs
  · rfl
  · rfl

@[simp] theorem restAs_rebook (order : BacktestOrder) (state : OrderState) (shown : BookSnapshot) :
    (engine.rebook books now).restAs config order state shown = (engine.restAs config order state shown).rebook books now := by
  rw [restAs, put_rebook, addToWorking_rebook, restAs]

/-- The engines differ in time and books, but not in the book of the token. -/
def Mirrors (token : String) (engine other : MatchingEngine) : Prop :=
  ∃ books now, other = engine.rebook books now ∧ books.get? token = engine.books.get? token

theorem Mirrors.put (mirrors : engine.Mirrors token other) (order : BacktestOrder) :
    (engine.put order).Mirrors token (other.put order) := by
  obtain ⟨books, now, rfl, same⟩ := mirrors
  exact ⟨books, now, put_rebook order, same⟩

theorem Mirrors.putBook (mirrors : engine.Mirrors token other) (book : ResidualBook) :
    (engine.putBook book).Mirrors token (other.putBook book) := by
  obtain ⟨books, now, rfl, same⟩ := mirrors
  refine ⟨_, now, putBook_rebook book, ?_⟩
  rw [Dict.get?_set, same, MatchingEngine.putBook, Dict.get?_set]

theorem Mirrors.terminate (mirrors : engine.Mirrors token other) (order : BacktestOrder) (state : OrderState) :
    (engine.terminate order state).Mirrors token (other.terminate order state) := by
  obtain ⟨books, now, rfl, same⟩ := mirrors
  exact ⟨books, now, terminate_rebook order state, by rw [same, books_terminate]⟩

theorem Mirrors.removeFromWorking (mirrors : engine.Mirrors token other) (order : BacktestOrder) :
    (engine.removeFromWorking order).Mirrors token (other.removeFromWorking order) := by
  obtain ⟨books, now, rfl, same⟩ := mirrors
  exact ⟨books, now, removeFromWorking_rebook order, by rw [same, books_removeFromWorking]⟩

theorem Mirrors.restAs (mirrors : engine.Mirrors token other) (config : MatchingConfig) (order : BacktestOrder) (state : OrderState)
    (shown : BookSnapshot) : (engine.restAs config order state shown).Mirrors token (other.restAs config order state shown) := by
  obtain ⟨books, now, rfl, same⟩ := mirrors
  exact ⟨books, now, restAs_rebook order state shown, by rw [same, books_restAs]⟩

theorem Mirrors.get? (mirrors : engine.Mirrors token other) : other.books.get? token = engine.books.get? token := by
  obtain ⟨books, now, rfl, same⟩ := mirrors
  exact same

/-- Two outcomes of an admission or of a match: the same fills, and engines that mirror each other. -/
def Pairs (token : String) (first second : MatchingEngine × List Fill) : Prop :=
  second.2 = first.2 ∧ first.1.Mirrors token second.1

theorem Mirrors.handleAdmit (mirrors : engine.Mirrors token other) (config : MatchingConfig) (time : Instant)
    (produced : List Fill) (own : order.tokenId = token) :
    Pairs token (engine.handleAdmit config time produced order) (other.handleAdmit config time produced order) := by
  unfold MatchingEngine.handleAdmit
  rw [own, mirrors.get?]
  cases engine.books.get? token with
  | none => exact ⟨rfl, mirrors⟩
  | some book =>
    simp only
    split_ifs
    · exact ⟨rfl, mirrors.terminate _ _⟩
    · exact ⟨rfl, mirrors.terminate _ _⟩
    · exact ⟨rfl, (mirrors.putBook _).terminate _ _⟩
    · exact ⟨rfl, (mirrors.putBook _).terminate _ _⟩
    · exact ⟨rfl, (mirrors.putBook _).restAs config _ _ _⟩
    · exact ⟨rfl, (mirrors.putBook _).terminate _ _⟩
    · exact ⟨rfl, mirrors.terminate _ _⟩
    · exact ⟨rfl, mirrors.restAs config _ _ _⟩

theorem Mirrors.tryMatchResting (mirrors : engine.Mirrors token other) (config : MatchingConfig) (produced : List Fill)
    (own : order.tokenId = token) :
    Pairs token (engine.tryMatchResting config produced order) (other.tryMatchResting config produced order) := by
  unfold MatchingEngine.tryMatchResting
  rw [own, mirrors.get?]
  cases engine.books.get? token with
  | none => exact ⟨rfl, mirrors⟩
  | some book =>
    simp only
    split_ifs
    · exact ⟨rfl, mirrors⟩
    · exact ⟨rfl, mirrors⟩
    · exact ⟨rfl, (((mirrors.putBook _).put _).terminate _ _).removeFromWorking _⟩
    · exact ⟨rfl, (mirrors.putBook _).put _⟩

theorem Mirrors.orders (mirrors : engine.Mirrors token other) : other.orders = engine.orders := by
  obtain ⟨books, now, rfl, -⟩ := mirrors
  rfl

theorem Mirrors.working (mirrors : engine.Mirrors token other) (listed : String) : other.working listed = engine.working listed := by
  obtain ⟨books, now, rfl, -⟩ := mirrors
  rfl

theorem Pairs.admitAll {same : List Fill} (pairs : Pairs snapshot.tokenId (engine, produced) (other, same))
    (config : MatchingConfig) (ids : List String) : Pairs snapshot.tokenId
      (ids.foldl (admitDue config snapshot) (engine, produced)) (ids.foldl (admitDue config snapshot) (other, same)) := by
  induction ids generalizing engine other produced same with
  | nil => exact pairs
  | cons id rest ih =>
    have fills : same = produced := pairs.1
    have mirrors : engine.Mirrors snapshot.tokenId other := pairs.2
    subst fills
    simp only [List.foldl_cons, admitDue]
    rw [mirrors.orders]
    cases engine.orders.get? id with
    | none => exact ih ⟨rfl, mirrors⟩
    | some order =>
      simp only
      split_ifs with due
      · exact ih (mirrors.handleAdmit config _ _ due.1)
      · exact ih ⟨rfl, mirrors⟩

theorem Pairs.matchAll {same ledger : List Fill} (pairs : Pairs token (engine, produced) (other, same))
    (audited : engine.Audited False (ledger ++ produced)) (config : MatchingConfig) (ids : List String)
    (listed : ∀ id ∈ ids, ∀ order, engine.orders.get? id = some order → order.tokenId = token ∧ order.state ≠ .pending) :
    Pairs token (ids.foldl (matchWorking config) (engine, produced)) (ids.foldl (matchWorking config) (other, same)) := by
  induction ids generalizing engine other produced same with
  | nil => exact pairs
  | cons id rest ih =>
    have fills : same = produced := pairs.1
    have mirrors : engine.Mirrors token other := pairs.2
    subst fills
    have listedRest : ∀ other ∈ rest, ∀ order, engine.orders.get? other = some order →
        order.tokenId = token ∧ order.state ≠ .pending :=
      fun other member => listed other (List.mem_cons_of_mem _ member)
    simp only [List.foldl_cons, matchWorking]
    rw [mirrors.orders]
    cases found : engine.orders.get? id with
    | none => exact ih ⟨rfl, mirrors⟩ audited listedRest
    | some order =>
      simp only
      split_ifs with terminal
      · exact ih ⟨rfl, mirrors⟩ audited listedRest
      · obtain ⟨own, admitted⟩ := listed id List.mem_cons_self order found
        have reached := audited.tryMatchResting config found terminal admitted
        exact ih (mirrors.tryMatchResting config same own) reached.audited (reached.listed listedRest)

def Within (token : String) (engine next : MatchingEngine) : Prop :=
  ∀ foreign, token ≠ foreign → next.books.get? foreign = engine.books.get? foreign ∧ next.working foreign = engine.working foreign

theorem Within.refl (token : String) (engine : MatchingEngine) : engine.Within token engine := fun _ _ => ⟨rfl, rfl⟩

theorem Within.trans {last : MatchingEngine} (first : engine.Within token next) (second : next.Within token last) :
    engine.Within token last := by
  intro foreign other
  obtain ⟨books, working⟩ := first foreign other
  obtain ⟨lastBooks, lastWorking⟩ := second foreign other
  exact ⟨lastBooks.trans books, lastWorking.trans working⟩

theorem within_put (engine : MatchingEngine) (order : BacktestOrder) : engine.Within token (engine.put order) :=
  fun _ _ => ⟨rfl, rfl⟩

theorem within_putBook (engine : MatchingEngine) {book : ResidualBook} (own : book.snapshot.tokenId = token) :
    engine.Within token (engine.putBook book) := by
  intro foreign other
  refine ⟨?_, rfl⟩
  rw [MatchingEngine.putBook, Dict.get?_set, own, if_neg other]

theorem within_terminate (engine : MatchingEngine) (order : BacktestOrder) (state : OrderState) :
    engine.Within token (engine.terminate order state) :=
  fun foreign _ => ⟨by rw [books_terminate], working_terminate engine order state foreign⟩

theorem within_removeFromWorking (engine : MatchingEngine) (own : order.tokenId = token) :
    engine.Within token (engine.removeFromWorking order) := by
  intro foreign other
  refine ⟨by rw [books_removeFromWorking], ?_⟩
  rw [working_removeFromWorking, own, if_neg other]

theorem within_restAs (engine : MatchingEngine) (own : order.tokenId = token) (state : OrderState) (shown : BookSnapshot) :
    engine.Within token (engine.restAs config order state shown) := by
  intro foreign other
  refine ⟨by rw [books_restAs], ?_⟩
  have elsewhere : ¬ ((rested config order state shown).tokenId = foreign ∧
      (rested config order state shown).orderId ∉ (engine.put (rested config order state shown)).working foreign) :=
    fun both => other (own.symm.trans both.1)
  rw [restAs, working_addToWorking, if_neg elsewhere, working_put]

theorem terms_consumeLevels (time : Instant) (order : BacktestOrder) (book : ResidualBook) (produced : List Fill) :
    (config.consumeLevels time order book produced).order.toNewOrder = order.toNewOrder := by
  unfold MatchingConfig.consumeLevels
  split_ifs
  · rfl
  · refine @MatchingConfig.takerWalk_keeps config time _ (fun walk => walk.order.toNewOrder = order.toNewOrder) ?_ _ 0 _ rfl
    exact fun walk _ _ _ same _ _ _ => same

theorem within_handleAdmit (engine : MatchingEngine) (config : MatchingConfig) (time : Instant) (produced : List Fill)
    (shows : engine.Shows fun _ => True) (own : order.tokenId = token) :
    engine.Within token (engine.handleAdmit config time produced order).1 := by
  unfold MatchingEngine.handleAdmit
  cases held : engine.books.get? order.tokenId with
  | none => exact Within.refl token engine
  | some book =>
    have named : book.snapshot.tokenId = token := (shows order.tokenId book held).1.trans own
    have shown := consumeLevels_snapshot config time order book produced
    have booked : engine.Within token (engine.putBook (config.consumeLevels time order book produced).book) :=
      within_putBook engine (by rw [shown, named])
    have walked : (config.consumeLevels time order book produced).order.tokenId = token := by
      rw [terms_consumeLevels, own]
    simp only
    split_ifs
    · exact within_terminate engine _ _
    · exact within_terminate engine _ _
    · exact booked.trans (within_terminate _ _ _)
    · exact booked.trans (within_terminate _ _ _)
    · exact booked.trans (within_restAs _ walked _ _)
    · exact booked.trans (within_terminate _ _ _)
    · exact within_terminate engine _ _
    · exact within_restAs engine own _ _

theorem within_tryMatchResting (engine : MatchingEngine) (config : MatchingConfig) (produced : List Fill)
    (shows : engine.Shows fun _ => True) (own : order.tokenId = token) :
    engine.Within token (engine.tryMatchResting config produced order).1 := by
  unfold MatchingEngine.tryMatchResting
  cases held : engine.books.get? order.tokenId with
  | none => exact Within.refl token engine
  | some book =>
    have named : book.snapshot.tokenId = token := (shows order.tokenId book held).1.trans own
    have stamps := config.restingWalk_stamps order book produced
    simp only
    generalize config.restingWalk 0 (book.remaining order.side) ⟨order, book, produced, order.remainingSize⟩ = walk at stamps ⊢
    have booked : engine.Within token (engine.putBook walk.book) := within_putBook engine (by rw [stamps.shown, named])
    have matched := booked.trans (within_put _ walk.order)
    have walked : walk.order.tokenId = token := by rw [stamps.terms, own]
    split_ifs
    · exact Within.refl token engine
    · exact Within.refl token engine
    · exact (matched.trans (within_terminate _ _ _)).trans (within_removeFromWorking _ walked)
    · exact matched

theorem applyDueCancels_none (uncancelled : engine.pendingCancels = Dict.empty) (time : Instant) :
    engine.applyDueCancels time = engine := by
  unfold MatchingEngine.applyDueCancels
  rw [uncancelled]
  rfl

theorem decayQueue_rebook (old new : ResidualBook) (id : String) :
    (engine.rebook books now).decayQueue config old new id = (engine.decayQueue config old new id).rebook books now := by
  have same : (engine.rebook books now).orders = engine.orders := rfl
  unfold decayQueue
  rw [same]
  cases engine.orders.get? id with
  | none => rfl
  | some order =>
    simp only
    cases order.queueAheadShares with
    | none => rfl
    | some ahead =>
      simp only
      split_ifs
      · rfl
      · rfl

theorem working_decayQueue (old new : ResidualBook) (id listed : String) :
    (engine.decayQueue config old new id).working listed = engine.working listed := by
  unfold decayQueue
  cases engine.orders.get? id with
  | none => rfl
  | some order =>
    simp only
    cases order.queueAheadShares with
    | none => rfl
    | some ahead =>
      simp only
      split_ifs
      · rfl
      · rfl

theorem within_refreshBook (engine : MatchingEngine) (config : MatchingConfig) (snapshot : BookSnapshot) :
    engine.Within snapshot.tokenId (engine.refreshBook config snapshot) := by
  intro foreign other
  refine ⟨by rw [books_refreshBook, Dict.get?_set, if_neg other], ?_⟩
  have each : ∀ (old new : ResidualBook) (ids : List String) (start : MatchingEngine),
      (ids.foldl (decayQueue config old new) start).working foreign = start.working foreign := by
    intro old new ids
    induction ids with
    | nil => exact fun _ => rfl
    | cons id rest ih =>
      intro start
      rw [List.foldl_cons, ih, working_decayQueue]
  unfold MatchingEngine.refreshBook
  cases engine.books.get? snapshot.tokenId with
  | none => rfl
  | some old => exact each old _ _ _

theorem within_matchedAt (audited : engine.Audited False engine.allFills) (shows : engine.Shows fun _ => True)
    (uncancelled : engine.pendingCancels = Dict.empty) (config : MatchingConfig) (snapshot : BookSnapshot) :
    engine.Within snapshot.tokenId (engine.matchedAt config snapshot).1 := by
  have timed : ({ engine with now := some snapshot.observedAt } : MatchingEngine).applyDueCancels snapshot.observedAt =
      { engine with now := some snapshot.observedAt } :=
    @applyDueCancels_none { engine with now := some snapshot.observedAt } uncancelled _
  have refreshed : engine.Within snapshot.tokenId (engine.refreshedAt config snapshot) := by
    rw [MatchingEngine.refreshedAt, timed]
    exact within_refreshBook { engine with now := some snapshot.observedAt } config snapshot
  have begun : (engine.refreshedAt config snapshot).Audited False (engine.allFills ++ []) := by
    rw [List.append_nil]
    exact (audited.refreshedAt config snapshot).audited
  have admitted := @Audited.admitAll_keeps config _ snapshot _ _ (fun _ => True)
    (fun state => engine.Within snapshot.tokenId state.1)
    (fun start produced id order received _ shows within _ own _ _ _ =>
      within.trans (within_handleAdmit start config _ produced shows own))
    begun (shows.refreshedAt config trivial) refreshed ((engine.refreshedAt config snapshot).orders.entries.map Prod.fst)
  have auditedAt : (engine.admittedAt config snapshot).1.Audited False (engine.allFills ++ (engine.admittedAt config snapshot).2) :=
    (audited.admittedAt False.elim config False.elim).audited
  exact @Audited.matchAll_keeps config _ _ _ snapshot.tokenId (fun _ => True)
    (fun state => engine.Within snapshot.tokenId state.1)
    (fun start produced id order _ shows within _ own _ _ =>
      within.trans (within_tryMatchResting start config produced shows own))
    auditedAt (shows.admittedAt config trivial) admitted _ auditedAt.listed_working

/-- The engine that follows every snapshot and the one that passes some over: their books agree wherever an
order rests, and the second may be behind in time. -/
structure Shadows (fast full : MatchingEngine) : Prop where
  rebooked : ∃ books now, full = fast.rebook books now
  books : ∀ token, full.books.get? token = fast.books.get? token ∨ fast.working token = []
  behind : ∀ now, fast.now = some now → ∃ later, full.now = some later ∧ now ≤ later
  uncancelled : fast.pendingCancels = Dict.empty
  audited : fast.Audited False fast.allFills
  shows : fast.Shows fun _ => True
  showsFull : full.Shows fun _ => True

variable {fast full : MatchingEngine}

theorem Shadows.auditedFull (shadows : fast.Shadows full) : full.Audited False full.allFills := by
  obtain ⟨books, now, rfl⟩ := shadows.rebooked
  exact shadows.audited.congr rfl rfl rfl

theorem Shadows.uncancelledFull (shadows : fast.Shadows full) : full.pendingCancels = Dict.empty := by
  obtain ⟨books, now, rfl⟩ := shadows.rebooked
  exact shadows.uncancelled

theorem refreshBook_idle (config : MatchingConfig) (idle : engine.working snapshot.tokenId = []) :
    engine.refreshBook config snapshot = { engine with books := engine.books.set snapshot.tokenId { snapshot := snapshot } } := by
  unfold MatchingEngine.refreshBook
  rw [idle]
  cases engine.books.get? snapshot.tokenId with
  | none => rfl
  | some old => rfl

theorem refreshBook_rebook (config : MatchingConfig) (same : books.get? snapshot.tokenId = engine.books.get? snapshot.tokenId) :
    (engine.rebook books now).refreshBook config snapshot =
      (engine.refreshBook config snapshot).rebook (books.set snapshot.tokenId { snapshot := snapshot }) now := by
  have each : ∀ (old new : ResidualBook) (ids : List String) (start : MatchingEngine) (books : Dict String ResidualBook),
      ids.foldl (decayQueue config old new) (start.rebook books now) =
        (ids.foldl (decayQueue config old new) start).rebook books now := by
    intro old new ids start books
    induction ids generalizing start with
    | nil => rfl
    | cons id rest ih => rw [List.foldl_cons, decayQueue_rebook, ih, List.foldl_cons]
  have shown : (engine.rebook books now).books.get? snapshot.tokenId = engine.books.get? snapshot.tokenId := same
  unfold MatchingEngine.refreshBook
  rw [shown]
  cases engine.books.get? snapshot.tokenId with
  | none => rfl
  | some old => exact each old _ _ { engine with books := engine.books.set snapshot.tokenId { snapshot := snapshot } } _

theorem Shadows.refreshedAt (shadows : fast.Shadows full) (config : MatchingConfig) (snapshot : BookSnapshot) :
    (fast.refreshedAt config snapshot).Mirrors snapshot.tokenId (full.refreshedAt config snapshot) := by
  have timed : ∀ engine : MatchingEngine, engine.pendingCancels = Dict.empty →
      engine.refreshedAt config snapshot = { engine with now := some snapshot.observedAt }.refreshBook config snapshot := by
    intro engine uncancelled
    have none_ := @applyDueCancels_none { engine with now := some snapshot.observedAt } uncancelled snapshot.observedAt
    rw [MatchingEngine.refreshedAt, none_]
  have own := shadows.books snapshot.tokenId
  rw [timed fast shadows.uncancelled, timed full shadows.uncancelledFull]
  obtain ⟨books, now, rfl⟩ := shadows.rebooked
  have clock : { fast.rebook books now with now := some snapshot.observedAt } =
      { fast with now := some snapshot.observedAt }.rebook books (some snapshot.observedAt) := rfl
  rw [clock]
  rcases own with same | idle
  · refine ⟨_, _, @refreshBook_rebook { fast with now := some snapshot.observedAt } snapshot books _ config same, ?_⟩
    rw [Dict.get?_set, if_pos rfl, books_refreshBook, Dict.get?_set, if_pos rfl]
  · have idleFast : ({ fast with now := some snapshot.observedAt } : MatchingEngine).working snapshot.tokenId = [] := idle
    have idleFull : (({ fast with now := some snapshot.observedAt } : MatchingEngine).rebook books
        (some snapshot.observedAt)).working snapshot.tokenId = [] := idle
    rw [refreshBook_idle config idleFast, refreshBook_idle config idleFull]
    refine ⟨books.set snapshot.tokenId { snapshot := snapshot }, some snapshot.observedAt, rfl, ?_⟩
    rw [Dict.get?_set, if_pos rfl]
    show _ = (fast.books.set snapshot.tokenId { snapshot := snapshot }).get? snapshot.tokenId
    rw [Dict.get?_set, if_pos rfl]

theorem advanceTo_of_later (config : MatchingConfig) (later : ∀ now, engine.now = some now → now ≤ snapshot.observedAt) :
    engine.advanceTo config snapshot = .ok ({ (engine.matchedAt config snapshot).1 with
      allFills := (engine.matchedAt config snapshot).1.allFills ++ (engine.matchedAt config snapshot).2 },
        (engine.matchedAt config snapshot).2) := by
  have onTime : (engine.now.filter fun now => snapshot.observedAt < now) = none := by
    cases known : engine.now with
    | none => rfl
    | some now =>
      simp [later now known]
  unfold MatchingEngine.advanceTo
  rw [onTime]
  rfl

theorem Shadows.matchedAt (shadows : fast.Shadows full) (config : MatchingConfig) (snapshot : BookSnapshot) :
    Pairs snapshot.tokenId (fast.matchedAt config snapshot) (full.matchedAt config snapshot) := by
  have mirrors := shadows.refreshedAt config snapshot
  have refreshed : Pairs snapshot.tokenId (fast.refreshedAt config snapshot, []) (full.refreshedAt config snapshot, []) :=
    ⟨rfl, mirrors⟩
  have admitted := refreshed.admitAll config ((fast.refreshedAt config snapshot).orders.entries.map Prod.fst)
  have auditedAt : (fast.admittedAt config snapshot).1.Audited False (fast.allFills ++ (fast.admittedAt config snapshot).2) :=
    (shadows.audited.admittedAt False.elim config False.elim).audited
  have admittedAt : Pairs snapshot.tokenId (fast.admittedAt config snapshot) (full.admittedAt config snapshot) := by
    rw [MatchingEngine.admittedAt, MatchingEngine.admittedAt, mirrors.orders]
    exact admitted
  have listed := admittedAt.2.working snapshot.tokenId
  have matched := admittedAt.matchAll auditedAt config ((fast.admittedAt config snapshot).1.working snapshot.tokenId)
    auditedAt.listed_working
  rw [MatchingEngine.matchedAt, MatchingEngine.matchedAt, listed]
  exact matched

theorem Shadows.advanceTo (shadows : fast.Shadows full) (config : MatchingConfig)
    (later : ∀ now, full.now = some now → now ≤ snapshot.observedAt) :
    ∃ nextFast nextFull fills, fast.advanceTo config snapshot = .ok (nextFast, fills) ∧
      full.advanceTo config snapshot = .ok (nextFull, fills) ∧ nextFast.Shadows nextFull ∧
        nextFast.now = some snapshot.observedAt ∧ nextFull.now = some snapshot.observedAt := by
  have laterFast : ∀ now, fast.now = some now → now ≤ snapshot.observedAt := by
    intro now known
    obtain ⟨further, at_, before⟩ := shadows.behind now known
    exact before.trans (later further at_)
  have doneFast := advanceTo_of_later config laterFast
  have doneFull := advanceTo_of_later config later
  obtain ⟨fills, mirrors⟩ := shadows.matchedAt config snapshot
  have reached := @Audited.matchedAt False fast fast.allFills snapshot shadows.audited False.elim config False.elim
  have reachedFull := @Audited.matchedAt False full full.allFills snapshot shadows.auditedFull False.elim config False.elim
  obtain ⟨audited, -⟩ := shadows.audited.advanceTo False.elim False.elim doneFast
  have within := within_matchedAt shadows.audited shadows.shows shadows.uncancelled config snapshot
  have withinFull := within_matchedAt shadows.auditedFull shadows.showsFull shadows.uncancelledFull config snapshot
  rw [fills] at doneFull
  refine ⟨_, _, _, doneFast, doneFull, ⟨?_, fun token => ?_, fun now known => ⟨now, ?_, le_rfl⟩, ?_, audited,
    shadows.shows.advanceTo trivial doneFast, shadows.showsFull.advanceTo trivial doneFull⟩, reached.clock, reachedFull.clock⟩
  · obtain ⟨books, now, same, -⟩ := mirrors
    exact ⟨books, now, by rw [same]; rfl⟩
  · by_cases own : snapshot.tokenId = token
    · subst own
      exact Or.inl mirrors.get?
    · obtain ⟨books, working⟩ := within token own
      obtain ⟨booksFull, -⟩ := withinFull token own
      rcases shadows.books token with same | idle
      · exact Or.inl (booksFull.trans (same.trans books.symm))
      · exact Or.inr (working.trans idle)
  · exact reachedFull.clock.trans (reached.clock.symm.trans known)
  · apply Dict.eq_empty
    intro id
    rcases reached.cancels id with same | gone
    · rw [same]
      show fast.pendingCancels.get? id = none
      rw [shadows.uncancelled]
      rfl
    · exact gone.1

theorem admitAll_idle (config : MatchingConfig) (ids : List String)
    (idle : ∀ id order, engine.orders.get? id = some order → order.tokenId = snapshot.tokenId → order.state ≠ .pending) :
    ids.foldl (admitDue config snapshot) (engine, produced) = (engine, produced) := by
  induction ids with
  | nil => rfl
  | cons id rest ih =>
    have still : admitDue config snapshot (engine, produced) id = (engine, produced) := by
      unfold admitDue
      cases found : engine.orders.get? id with
      | none => rfl
      | some order =>
        simp only
        exact if_neg fun due => idle id order found due.1 due.2.1
    rw [List.foldl_cons, still, ih]

theorem Shadows.idle (shadows : fast.Shadows full) (config : MatchingConfig)
    (later : ∀ now, full.now = some now → now ≤ snapshot.observedAt)
    (inactive : ¬ fast.hasActiveOrdersForToken snapshot.tokenId = true) :
    ∃ nextFull, full.advanceTo config snapshot = .ok (nextFull, []) ∧ fast.Shadows nextFull ∧
      nextFull.now = some snapshot.observedAt := by
  rw [shadows.audited.hasActive_iff] at inactive
  have ended : ∀ id order, fast.orders.get? id = some order → order.tokenId = snapshot.tokenId → order.IsTerminal := by
    intro id order found own
    by_contra live
    exact inactive ⟨id, order, found, own, live⟩
  have unlisted : fast.working snapshot.tokenId = [] := by
    rw [List.eq_nil_iff_forall_not_mem]
    intro id listed
    obtain ⟨order, found, own, resting⟩ := (shadows.audited.working snapshot.tokenId id).1 listed
    exact (ended id order found own).not_resting resting
  have done := advanceTo_of_later config later
  have uncancelled := shadows.uncancelledFull
  have showsFull := shadows.showsFull
  obtain ⟨books, now, rfl⟩ := shadows.rebooked
  have refreshed : (fast.rebook books now).refreshedAt config snapshot =
      fast.rebook (books.set snapshot.tokenId { snapshot := snapshot }) (some snapshot.observedAt) := by
    have none_ := @applyDueCancels_none { fast.rebook books now with now := some snapshot.observedAt } uncancelled snapshot.observedAt
    have unlistedFull : ({ fast.rebook books now with now := some snapshot.observedAt } : MatchingEngine).working
        snapshot.tokenId = [] := unlisted
    rw [MatchingEngine.refreshedAt, none_, refreshBook_idle config unlistedFull]
    rfl
  have admitted : (fast.rebook books now).admittedAt config snapshot =
      (fast.rebook (books.set snapshot.tokenId { snapshot := snapshot }) (some snapshot.observedAt), []) := by
    rw [MatchingEngine.admittedAt, refreshed]
    exact admitAll_idle config _ fun id order found own => (ended id order found own).not_pending
  have matched : (fast.rebook books now).matchedAt config snapshot =
      (fast.rebook (books.set snapshot.tokenId { snapshot := snapshot }) (some snapshot.observedAt), []) := by
    have unlistedFull : (fast.rebook (books.set snapshot.tokenId { snapshot := snapshot }) (some snapshot.observedAt)).working
        snapshot.tokenId = [] := unlisted
    rw [MatchingEngine.matchedAt, admitted, unlistedFull]
    rfl
  have shows := showsFull.advanceTo trivial done
  rw [matched] at done shows
  refine ⟨_, done, ⟨⟨books.set snapshot.tokenId { snapshot := snapshot }, some snapshot.observedAt, ?_⟩, fun token => ?_,
    fun time known => ⟨snapshot.observedAt, rfl, ?_⟩, shadows.uncancelled, shadows.audited, shadows.shows, shows⟩, rfl⟩
  · simp only [List.append_nil]
  · by_cases own : snapshot.tokenId = token
    · subst own
      exact Or.inr unlisted
    · show (books.set snapshot.tokenId { snapshot := snapshot }).get? token = _ ∨ _
      rw [Dict.get?_set, if_neg own]
      exact shadows.books token
  · obtain ⟨further, at_, before⟩ := shadows.behind time known
    exact before.trans (later further at_)

theorem submit_rebook (config : MatchingConfig) (order : NewOrder) (latency : Instant) :
    (engine.rebook books now).submit config order latency = (engine.submit config order latency).map fun next => next.rebook books now := by
  have same : (engine.rebook books now).orders = engine.orders := rfl
  unfold MatchingEngine.submit
  rw [same]
  by_cases taken : (engine.orders.get? order.orderId).isSome = true
  · rw [if_pos taken, if_pos taken]
    rfl
  · rw [if_neg taken, if_neg taken]
    cases config.rules.validateSubmit order.side order.price order.size order.tif order.postOnly with
    | error _ => rfl
    | ok _ => rfl

theorem working_submit {order : NewOrder} {latency : Instant} (done : engine.submit config order latency = .ok next) :
    next.workingByToken = engine.workingByToken := by
  obtain ⟨-, ⟨reason, rfl⟩ | ⟨adjusted, -, rfl⟩⟩ := submit_spec done
  · rfl
  · rfl

theorem Shadows.submit (shadows : fast.Shadows full) (config : MatchingConfig) (order : NewOrder) (latency : Instant) :
    Agree (fun nextFast nextFull => nextFast.Shadows nextFull ∧ nextFast.now = fast.now ∧ nextFull.now = full.now)
      (fast.submit config order latency) (full.submit config order latency) := by
  have showsFull := shadows.showsFull
  have behind := shadows.behind
  have agreeing := shadows.books
  obtain ⟨books, now, rfl⟩ := shadows.rebooked
  rw [submit_rebook]
  cases done : fast.submit config order latency with
  | error raised => exact .raised raised
  | ok next =>
    obtain ⟨-, pendingCancels, clock, -⟩ := submit_cases done
    have same := books_submit done
    have working : ∀ token, next.working token = fast.working token := fun token => by
      rw [MatchingEngine.working, working_submit done, MatchingEngine.working]
    refine .returned ⟨⟨⟨books, now, rfl⟩, fun token => ?_, ?_, pendingCancels.trans shadows.uncancelled,
      (shadows.audited.submit done).1, shadows.shows.congr same, showsFull.congr rfl⟩, clock, rfl⟩
    · rw [same, working]
      exact agreeing token
    · rw [clock]
      exact behind

theorem shadows_empty : Shadows {} {} := by
  have nothing : Shows {} fun _ => True := fun token book held => by cases held
  refine ⟨⟨Dict.empty, none, rfl⟩, fun _ => Or.inl rfl, (fun now known => by cases known), rfl, audited_empty False, nothing, nothing⟩

end MatchingEngine

end Callisto.Backtest
