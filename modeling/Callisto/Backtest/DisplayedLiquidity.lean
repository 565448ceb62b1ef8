import Callisto.Backtest.MatchingAdvance
import Callisto.Library.Runs

/-! The engine does not fill a displayed share twice, as long as the orders at rest that meet one level
together have the price of that level for their limit. -/

namespace Callisto.Backtest

open Callisto.Library Callisto.Library.Runs

/-- An order that is not ended, at the front of its queue, and not filled. -/
def BacktestOrder.AtFront (order : BacktestOrder) : Prop :=
  ¬ order.IsTerminal ∧ ¬ (order.queueAheadShares.any fun ahead => 1 / 10 ^ 9 < ahead) = true ∧ 0 < order.remainingSize

instance (order : BacktestOrder) : Decidable order.AtFront := by
  unfold BacktestOrder.AtFront
  infer_instance

def BookSnapshot.Apart (snapshot : BookSnapshot) (first second : BacktestOrder) : Prop :=
  first.side = second.side → ∀ level ∈ snapshot.opposite first.side,
    ¬ first.side.Beyond first.price level.price → ¬ second.side.Beyond second.price level.price → first.price = level.price

instance (snapshot : BookSnapshot) (first second : BacktestOrder) : Decidable (snapshot.Apart first second) := by
  unfold BookSnapshot.Apart
  infer_instance

/-- The levels that an order meets are used up, or the record covers them. -/
def ResidualBook.Covers (book : ResidualBook) (order : BacktestOrder) : Prop :=
  book.SpentFrom order.side order.price 0 ∨ ∀ index level, (book.snapshot.opposite order.side)[index]? = some level →
    ¬ order.side.Beyond order.price level.price → book.Recorded order.side index

structure ResidualBook.Met (book nextBook : ResidualBook) : Prop where
  shown : nextBook.snapshot = book.snapshot
  fitted : ∀ side index, nextBook.Fitted side index
  placed : nextBook.Placed
  grown : ∀ side price, book.consumed side price ≤ nextBook.consumed side price

/-- An order at rest takes no more from any level than it displays, and what it takes stays on record for
the orders that meet the level after it. -/
theorem met_restingWalk {config : MatchingConfig} {book : ResidualBook} {order : BacktestOrder} {later : BacktestOrder → Prop}
    (fitted : ∀ side index, book.Fitted side index) (placed : book.Placed) (covers : book.Covers order)
    (coversLater : ∀ other, later other → book.Covers other)
    (apart : ∀ other, later other → book.SpentFrom order.side order.price 0 ∨ book.SpentFrom other.side other.price 0 ∨
      book.snapshot.Apart order other) (produced : List Fill) (remaining : ℚ) :
    let walk := config.restingWalk 0 (book.remaining order.side) ⟨order, book, produced, remaining⟩
    Walk.Goes ⟨order, book, produced, remaining⟩ walk ∧ book.Met walk.book ∧
      ∀ other, later other → walk.book.Covers other := by
  have same : book.Met book := ⟨rfl, fitted, placed, fun _ _ => le_rfl⟩
  by_cases spent : book.SpentFrom order.side order.price 0
  · have still : config.restingWalk 0 (book.remaining order.side) ⟨order, book, produced, remaining⟩ =
        ⟨order, book, produced, remaining⟩ :=
      @MatchingConfig.restingWalk_spent config _ ⟨order, book, produced, remaining⟩ 0 List.drop_zero spent
    rw [still]
    exact ⟨Walk.goes_refl _, same, coversLater⟩
  · have recorded := covers.resolve_left spent
    -- the record is to be kept for the levels of this side that a later order meets
    have mustKeep : ∀ (index : ℕ) (level : PriceLevel), (∃ other, later other ∧ ¬ book.SpentFrom other.side other.price 0 ∧
        other.side = order.side ∧ ∃ level : PriceLevel, (book.snapshot.opposite order.side)[index]? = some level ∧
          ¬ order.side.Beyond other.price level.price) → (book.snapshot.opposite order.side)[index]? = some level →
        ¬ order.side.Beyond order.price level.price → order.price = level.price := by
      rintro index level ⟨other, late, unspent, side, _, found, met⟩ at_ own
      rw [found] at at_
      cases at_
      have apartOther := ((apart other late).resolve_left spent).resolve_left unspent
      exact apartOther side.symm level (List.mem_of_getElem? found) own (by rw [side]; exact met)
    have kept : ∀ index, (∃ other, later other ∧ ¬ book.SpentFrom other.side other.price 0 ∧
        other.side = order.side ∧ ∃ level : PriceLevel, (book.snapshot.opposite order.side)[index]? = some level ∧
          ¬ order.side.Beyond other.price level.price) → book.Recorded order.side index := by
      rintro index ⟨other, late, unspent, side, level, found, met⟩
      have record := (coversLater other late).resolve_left unspent
      rw [side] at record
      exact record index level found met
    have start := Walked.refl (fitted order.side) kept placed 0
    obtain ⟨goes, reached, walked⟩ := @MatchingConfig.restingWalk_spec config book _ _
      ⟨order, book, produced, remaining⟩ 0 recorded mustKeep List.drop_zero start
    refine ⟨goes, ⟨walked.snapshot, fun side index => ?_, walked.placed, goes.grown⟩, fun other late => ?_⟩
    · by_cases own : side = order.side
      · subst own
        exact walked.fitted index
      · have opposing : side = order.side.opposing := Side.eq_opposing own
        subst opposing
        intro level found
        rw [walked.snapshot] at found
        rw [walked.other]
        exact fitted _ index level found
    · by_cases unspent : book.SpentFrom other.side other.price 0
      · exact Or.inl (unspent.mono walked.snapshot goes.grown)
      · right
        intro index level found met
        rw [walked.snapshot] at found
        by_cases own : other.side = order.side
        · rw [own] at found met ⊢
          exact walked.recorded index ⟨other, late, unspent, own, level, found, met⟩
        · have opposing : other.side = order.side.opposing := Side.eq_opposing own
          have before := (coversLater other late).resolve_left unspent index level found met
          rw [opposing] at before found ⊢
          intro again at_
          rw [walked.snapshot, found] at at_
          cases at_
          rw [walked.other]
          exact (before level found).trans (goes.grown _ _)

/-- Where the engine stands while it looks at the orders at rest again, with some of them still to come. -/
structure Serving (snapshot : BookSnapshot) (before : MatchingEngine) (first : ResidualBook) (rest : List String)
    (book : ResidualBook) (engine : MatchingEngine) (produced : List Fill) : Prop where
  orderly : engine.Orderly
  held : engine.books.get? snapshot.tokenId = some book
  shown : book.snapshot = snapshot
  fitted : ∀ side index, book.Fitted side index
  placed : book.Placed
  paired : takingSizes book.takings = sizesOf produced
  grown : ∀ side price, first.consumed side price ≤ book.consumed side price
  others : ∀ token, snapshot.tokenId ≠ token → engine.books.get? token = before.books.get? token
  orders : ∀ id ∈ rest, engine.orders.get? id = before.orders.get? id
  covers : ∀ id ∈ rest, ∀ order, before.orders.get? id = some order → order.AtFront → book.Covers order

namespace Serving

variable {config : MatchingConfig} {snapshot : BookSnapshot} {before engine : MatchingEngine} {first book : ResidualBook}
  {rest : List String} {id : String} {produced : List Fill}

theorem skip (serving : Serving snapshot before first (id :: rest) book engine produced) :
    Serving snapshot before first rest book engine produced :=
  { serving with
    orders := fun other member => serving.orders other (List.mem_cons_of_mem _ member)
    covers := fun other member => serving.covers other (List.mem_cons_of_mem _ member) }

theorem serve (serving : Serving snapshot before first (id :: rest) book engine produced) {next : MatchingEngine}
    {nextBook : ResidualBook} {more : List Fill} (orderly : next.Orderly) (met : book.Met nextBook)
    (paired : takingSizes nextBook.takings = sizesOf more)
    (books : ∀ token, next.books.get? token = if snapshot.tokenId = token then some nextBook else engine.books.get? token)
    (orders : ∀ other, id ≠ other → next.orders.get? other = engine.orders.get? other) (fresh : id ∉ rest)
    (covers : ∀ other ∈ rest, ∀ order, before.orders.get? other = some order → order.AtFront → nextBook.Covers order) :
    Serving snapshot before first rest nextBook next more := by
  refine ⟨orderly, by rw [books, if_pos rfl], met.shown.trans serving.shown, met.fitted, met.placed, paired,
    fun side price => (serving.grown side price).trans (met.grown side price), fun token foreign => ?_,
    fun other member => ?_, covers⟩
  · rw [books, if_neg foreign]
    exact serving.others token foreign
  · have different : id ≠ other := by
      rintro rfl
      exact fresh member
    rw [orders other different]
    exact serving.orders other (List.mem_cons_of_mem _ member)

theorem matchWorking (serving : Serving snapshot before first (id :: rest) book engine produced) (config : MatchingConfig)
    (filed : ∃ order, before.orders.get? id = some order ∧ order.tokenId = snapshot.tokenId)
    (shown : first.snapshot = snapshot) (fresh : id ∉ rest)
    (apart : ∀ other ∈ rest, ∀ order late, before.orders.get? id = some order → before.orders.get? other = some late →
      order.AtFront → late.AtFront → first.SpentFrom order.side order.price 0 ∨
        first.SpentFrom late.side late.price 0 ∨ snapshot.Apart order late) :
    ∃ nextBook, Serving snapshot before first rest nextBook
      (MatchingEngine.matchWorking config (engine, produced) id).1
      (MatchingEngine.matchWorking config (engine, produced) id).2 := by
  obtain ⟨order, known, token⟩ := filed
  have found := serving.orders id List.mem_cons_self
  rw [known] at found
  have keyed := serving.orderly.keyed id order found
  unfold MatchingEngine.matchWorking
  rw [found]
  simp only
  split_ifs with terminal
  · exact ⟨book, serving.skip⟩
  unfold MatchingEngine.tryMatchResting
  rw [token, serving.held]
  simp only
  split_ifs with queued full last
  · exact ⟨book, serving.skip⟩
  · exact ⟨book, serving.skip⟩
  all_goals
    have front : order.AtFront := ⟨terminal, queued, not_le.1 full⟩
    have mono : ∀ {side limit}, first.SpentFrom side limit 0 → book.SpentFrom side limit 0 := fun spent =>
      spent.mono (serving.shown.trans shown.symm) serving.grown
    obtain ⟨goes, met, coversLater⟩ := @met_restingWalk config book order
      (fun late => ∃ other ∈ rest, before.orders.get? other = some late ∧ late.AtFront) serving.fitted serving.placed
      (serving.covers id List.mem_cons_self order known front)
      (fun late ⟨other, member, held, ready⟩ =>
        serving.covers other (List.mem_cons_of_mem _ member) late held ready)
      (fun late ⟨other, member, held, ready⟩ => by
        rcases apart other member order late known held front ready with spent | spent | separate
        · exact Or.inl (mono spent)
        · exact Or.inr (Or.inl (mono spent))
        · rw [serving.shown]
          exact Or.inr (Or.inr separate)) produced order.remainingSize
    generalize config.restingWalk 0 (book.remaining order.side) ⟨order, book, produced, order.remainingSize⟩ = walk at *
    have own : walk.order.orderId = id := by rw [goes.same, keyed]
    have put := (serving.orderly.putBook walk.book).put ((serving.orderly.putBook walk.book).knows found goes.same)
    have paired : takingSizes walk.book.takings = sizesOf walk.produced := by
      obtain ⟨more, made, -, -, -, takings⟩ := goes.fills
      rw [takings, made, serving.paired, sizesOf, sizesOf, sizesOf, List.map_append]
    have books : ∀ token, (engine.putBook walk.book).books.get? token =
        if snapshot.tokenId = token then some walk.book else engine.books.get? token := by
      intro token
      simp only [MatchingEngine.putBook]
      rw [Dict.get?_set, met.shown, serving.shown]
    have covers : ∀ other ∈ rest, ∀ order, before.orders.get? other = some order → order.AtFront → walk.book.Covers order :=
      fun other member late held ready => coversLater late ⟨other, member, held, ready⟩
    refine ⟨walk.book, ?_⟩
  · have knows : ((engine.putBook walk.book).put walk.order).Knows walk.order := by
      refine @MatchingEngine.Orderly.knows _ put id walk.order walk.order ?_ rfl
      rw [MatchingEngine.get?_put, if_pos own]
    refine serving.serve ((put.terminate knows .filled).removeFromWorking _) met paired (fun token => ?_)
      (fun other different => ?_) fresh covers
    · rw [MatchingEngine.books_removeFromWorking, MatchingEngine.books_terminate, MatchingEngine.books_put, books]
    · rw [MatchingEngine.orders_removeFromWorking, MatchingEngine.get?_terminate, MatchingEngine.get?_put, own,
        if_neg different, if_neg different, MatchingEngine.orders_putBook]
  · refine serving.serve put met paired books (fun other different => ?_) fresh covers
    rw [MatchingEngine.get?_put, own, if_neg different, MatchingEngine.orders_putBook]

theorem fold (config : MatchingConfig) (shown : first.snapshot = snapshot) (ids : List String) :
    ∀ {engine : MatchingEngine} {book : ResidualBook} {produced : List Fill},
      Serving snapshot before first ids book engine produced → ids.Nodup →
      (∀ id ∈ ids, ∃ order, before.orders.get? id = some order ∧ order.tokenId = snapshot.tokenId) →
      ids.Pairwise (fun id other => ∀ order late, before.orders.get? id = some order →
        before.orders.get? other = some late → order.AtFront → late.AtFront →
          first.SpentFrom order.side order.price 0 ∨ first.SpentFrom late.side late.price 0 ∨ snapshot.Apart order late) →
        ∃ nextBook, Serving snapshot before first [] nextBook
          (ids.foldl (MatchingEngine.matchWorking config) (engine, produced)).1
          (ids.foldl (MatchingEngine.matchWorking config) (engine, produced)).2 := by
  induction ids with
  | nil =>
    intro engine book produced serving _ _ _
    exact ⟨book, serving⟩
  | cons id rest ih =>
    intro engine book produced serving nodup filed apart
    obtain ⟨fresh, nodupRest⟩ := List.nodup_cons.1 nodup
    obtain ⟨apartFirst, apartRest⟩ := List.pairwise_cons.1 apart
    obtain ⟨nextBook, next⟩ := serving.matchWorking config (filed id List.mem_cons_self) shown fresh apartFirst
    rw [List.foldl_cons]
    exact ih next nodupRest (fun other member => filed other (List.mem_cons_of_mem _ member)) apartRest

end Serving

namespace MatchingEngine

variable {config : MatchingConfig} {engine next : MatchingEngine} {snapshot : BookSnapshot} {fills : List Fill}

/-- The order that an advance to a snapshot finds at the front of its queue: no due cancel ends it, and
the new book leaves nothing ahead of it. -/
def front (config : MatchingConfig) (engine : MatchingEngine) (snapshot : BookSnapshot) (id : String) :
    Option BacktestOrder :=
  (engine.orders.get? id).filter fun order =>
    ¬ ((engine.pendingCancels.get? id).any fun effectiveAt => effectiveAt ≤ snapshot.observedAt) = true ∧
      (engine.requeued config snapshot order).AtFront

/-- Of two orders at the front of their queues that meet one level of the snapshot, the earlier one has
the price of that level for its limit. -/
def Aligned (config : MatchingConfig) (engine : MatchingEngine) : MatchingCall → Prop
  | .submit _ _ => True
  | .cancel _ _ _ => True
  | .advanceTo snapshot => (engine.working snapshot.tokenId).Pairwise fun id other =>
      ∀ order ∈ engine.front config snapshot id, ∀ late ∈ engine.front config snapshot other, snapshot.Apart order late

instance (config : MatchingConfig) (engine : MatchingEngine) (call : MatchingCall) : Decidable (engine.Aligned config call) := by
  unfold Aligned
  cases call <;> infer_instance

/-- The fills of an advance are what was taken from the book of its snapshot, and none of it twice. -/
def FillsOnce (config : MatchingConfig) (engine : MatchingEngine) : MatchingCall → Prop
  | .submit _ _ => True
  | .cancel _ _ _ => True
  | .advanceTo snapshot => ∀ next fills, engine.advanceTo config snapshot = .ok (next, fills) →
      ∃ book, next.books.get? snapshot.tokenId = some book ∧ book.snapshot = snapshot ∧
        takingSizes book.takings = sizesOf fills ∧ book.NotOversold

/-- The orders and books are in place, and no book is oversold. -/
structure Sound (engine : MatchingEngine) : Prop where
  orderly : engine.Orderly
  books : ∀ token book, engine.books.get? token = some book → book.NotOversold

theorem apart_congr {first second order late : BacktestOrder} (same : order.toNewOrder = first.toNewOrder)
    (sameLate : late.toNewOrder = second.toNewOrder) (apart : snapshot.Apart first second) : snapshot.Apart order late := by
  unfold BookSnapshot.Apart at apart ⊢
  rw [same, sameLate]
  exact apart

/-- A working order that is at the front of its queue after the admissions has been so all along, unless it
was admitted just now and finds nothing. -/
theorem front_of_admitted (orderly : engine.Orderly) {book : ResidualBook} {admitted : MatchingEngine}
    (admitting : Admitting snapshot
      (({ engine with now := some snapshot.observedAt }.applyDueCancels snapshot.observedAt).refreshBook config snapshot)
      book admitted fills) {id : String}
    (listed : id ∈ ({ engine with now := some snapshot.observedAt }.applyDueCancels snapshot.observedAt).working
      snapshot.tokenId) {order : BacktestOrder} (found : admitted.orders.get? id = some order) (ready : order.AtFront) :
    book.SpentFrom order.side order.price 0 ∨
      ∃ known ∈ engine.front config snapshot id, order.toNewOrder = known.toNewOrder := by
  have orderlyTimed : ({ engine with now := some snapshot.observedAt } : MatchingEngine).Orderly :=
    orderly.congr rfl (fun _ => rfl) rfl
  obtain ⟨orderlyCancelled, books, -, cancelled⟩ := applyDueCancels_spec orderlyTimed snapshot.observedAt
  obtain ⟨-, -, -, refreshed⟩ := refreshBook_spec orderlyCancelled config snapshot
  rcases admitting.orders id order found with old | quiet
  · rw [refreshed, Option.map_eq_some_iff] at old
    obtain ⟨before, held, moved⟩ := old
    rw [if_pos listed] at moved
    have sameBook : requeued config ({ engine with now := some snapshot.observedAt }.applyDueCancels snapshot.observedAt)
        snapshot before = engine.requeued config snapshot before := by
      unfold requeued
      rw [books]
    rw [sameBook] at moved
    rcases cancelled id before held with terminal | ⟨same, live⟩
    · have stays : order.state = before.state := by rw [← moved, state_requeued]
      refine absurd ?_ ready.1
      unfold BacktestOrder.IsTerminal at terminal ⊢
      rwa [stays]
    · refine Or.inr ⟨before, ?_, by rw [← moved, toNewOrder_requeued]⟩
      unfold front
      rw [Option.mem_def, Option.filter_eq_some_iff]
      refine ⟨same, decide_eq_true ⟨fun due => ?_, by rwa [moved]⟩⟩
      rw [Option.any_eq_true] at due
      obtain ⟨effectiveAt, pending, early⟩ := due
      have late := live effectiveAt pending
      simp only [decide_eq_true_eq] at early
      exact absurd early (not_le.2 late)
  · exact Or.inl (quiet.resolve_left ready.1)

theorem advanceTo_fillsOnce (orderly : engine.Orderly) (aligned : engine.Aligned config (.advanceTo snapshot))
    (done : engine.advanceTo config snapshot = .ok (next, fills)) :
    next.Orderly ∧ (∀ token, snapshot.tokenId ≠ token → next.books.get? token = engine.books.get? token) ∧
      ∃ book, next.books.get? snapshot.tokenId = some book ∧ book.snapshot = snapshot ∧
        takingSizes book.takings = sizesOf fills ∧ book.NotOversold := by
  unfold advanceTo at done
  split at done
  · cases done
  simp only [Except.ok.injEq, Prod.mk.injEq] at done
  obtain ⟨rfl, rfl⟩ := done
  have orderlyTimed : ({ engine with now := some snapshot.observedAt } : MatchingEngine).Orderly :=
    orderly.congr rfl (fun _ => rfl) rfl
  obtain ⟨orderlyCancelled, booksCancelled, sublist, -⟩ := applyDueCancels_spec orderlyTimed snapshot.observedAt
  obtain ⟨orderlyRefreshed, booksRefreshed, workingRefreshed, -⟩ := refreshBook_spec orderlyCancelled config snapshot
  have start : Admitting snapshot
      (({ engine with now := some snapshot.observedAt }.applyDueCancels snapshot.observedAt).refreshBook config snapshot)
      { snapshot := snapshot }
      (({ engine with now := some snapshot.observedAt }.applyDueCancels snapshot.observedAt).refreshBook config snapshot)
      [] := by
    refine ⟨orderlyRefreshed, ?_, rfl, open_fresh snapshot, rfl, fun _ _ => rfl, fun _ _ => Or.inl, [], ?_, ?_⟩
    · rw [booksRefreshed, Dict.get?_set, if_pos rfl]
    · rw [List.append_nil]
    · intro id member
      cases member
  obtain ⟨book, admitting⟩ := start.fold config
    ((({ engine with now := some snapshot.observedAt }.applyDueCancels snapshot.observedAt).refreshBook config
      snapshot).orders.entries.map Prod.fst)
  generalize (List.foldl (admitDue config snapshot) _ _) = admitted at admitting ⊢
  obtain ⟨added, list, quiet⟩ := admitting.working
  have serving : Serving snapshot admitted.1 book (admitted.1.working snapshot.tokenId) book admitted.1 admitted.2 :=
    ⟨admitting.orderly, admitting.held, admitting.shown, admitting.open_.fitted, admitting.open_.placed, admitting.paired,
      fun _ _ => le_rfl, fun _ _ => rfl, fun _ _ => rfl,
      fun _ _ _ _ _ => Or.inr fun index _ _ _ => admitting.open_.recorded _ index⟩
  have apart : (admitted.1.working snapshot.tokenId).Pairwise fun id other => ∀ order late,
      admitted.1.orders.get? id = some order → admitted.1.orders.get? other = some late → order.AtFront → late.AtFront →
        book.SpentFrom order.side order.price 0 ∨ book.SpentFrom late.side late.price 0 ∨ snapshot.Apart order late := by
    rw [list, workingRefreshed, List.pairwise_append]
    refine ⟨?_, List.pairwise_of_forall_mem_list fun id _ other member order late _ found _ ready => ?_,
      fun id _ other member order late _ found _ ready => ?_⟩
    · refine List.Pairwise.imp_of_mem ?_ (List.Pairwise.sublist (sublist snapshot.tokenId) aligned)
      intro id other listed listedLate pair order late found foundLate ready readyLate
      rcases front_of_admitted orderly admitting listed found ready with spent | ⟨first, front, same⟩
      · exact Or.inl spent
      rcases front_of_admitted orderly admitting listedLate foundLate readyLate with spent | ⟨second, frontLate, sameLate⟩
      · exact Or.inr (Or.inl spent)
      exact Or.inr (Or.inr (apart_congr same sameLate (pair first front second frontLate)))
    · exact Or.inr (Or.inl ((quiet other member late found).resolve_left ready.1))
    · exact Or.inr (Or.inl ((quiet other member late found).resolve_left ready.1))
  obtain ⟨last, served⟩ := Serving.fold config admitting.shown (admitted.1.working snapshot.tokenId) serving
    (admitting.orderly.nodup _) (fun id listed => admitting.orderly.filed _ id listed) apart
  refine ⟨served.orderly.congr rfl (fun _ => rfl) rfl, fun token foreign => ?_, last, served.held, served.shown,
    served.paired, notOversold_of_fitted served.fitted served.placed⟩
  calc _ = admitted.1.books.get? token := served.others token foreign
    _ = _ := admitting.others token foreign
    _ = engine.books.get? token := by
      rw [booksRefreshed, booksCancelled, Dict.get?_set, if_neg foreign]

theorem Orderly.submit (orderly : engine.Orderly) {order : NewOrder} {latency : Instant}
    (done : engine.submit config order latency = .ok next) : next.Orderly ∧ next.books = engine.books := by
  have fresh : ∀ new : BacktestOrder, engine.orders.get? new.orderId = none → (engine.put new).Orderly := by
    intro new absent
    refine ⟨fun id other held => ?_, fun token id listed => ?_, orderly.nodup, orderly.named⟩
    · rw [get?_put] at held
      split_ifs at held with own
      · cases held
        exact own
      · exact orderly.keyed id other held
    · obtain ⟨known, held, owned⟩ := orderly.filed token id listed
      have different : new.orderId ≠ id := by
        intro same
        rw [← same, absent] at held
        cases held
      exact ⟨known, by rw [get?_put, if_neg different, held], owned⟩
  obtain ⟨absent, ⟨reason, rfl⟩ | ⟨adjusted, -, rfl⟩⟩ := submit_spec done
  · exact ⟨fresh _ absent, rfl⟩
  · exact ⟨(fresh _ absent).congr rfl (fun _ => rfl) rfl, rfl⟩

theorem Orderly.cancel (orderly : engine.Orderly) (id : String) (requestedAt latency : Instant) :
    (engine.cancel id requestedAt latency).1.Orderly ∧ (engine.cancel id requestedAt latency).1.books = engine.books := by
  unfold MatchingEngine.cancel
  cases found : engine.orders.get? id with
  | none => exact ⟨orderly, rfl⟩
  | some order =>
    simp only
    split_ifs
    · exact ⟨orderly, rfl⟩
    · exact ⟨orderly, rfl⟩
    · have known : engine.Knows { order with cancelPendingAt := some (requestedAt + latency) } := orderly.knows found rfl
      exact ⟨(orderly.put known).congr rfl (fun _ => rfl) rfl, rfl⟩

theorem Sound.step (sound : engine.Sound) {call : MatchingCall} (aligned : engine.Aligned config call) :
    (engine.step config call).Sound := by
  cases call with
  | submit order latency =>
    simp only [MatchingEngine.step]
    cases done : engine.submit config order latency with
    | error _ => exact sound
    | ok next =>
      obtain ⟨orderly, books⟩ := sound.orderly.submit done
      exact ⟨orderly, by rw [books]; exact sound.books⟩
  | cancel id requestedAt latency =>
    obtain ⟨orderly, books⟩ := sound.orderly.cancel id requestedAt latency
    exact ⟨orderly, by simp only [MatchingEngine.step, books]; exact sound.books⟩
  | advanceTo snapshot =>
    simp only [MatchingEngine.step]
    cases done : engine.advanceTo config snapshot with
    | error _ => exact sound
    | ok result =>
      obtain ⟨orderly, others, book, held, -, -, once⟩ := advanceTo_fillsOnce sound.orderly aligned done
      refine ⟨orderly, fun token other found => ?_⟩
      by_cases own : snapshot.tokenId = token
      · subst own
        rw [held] at found
        cases found
        exact once
      · rw [others token own] at found
        exact sound.books token other found

theorem Sound.fillsOnce (sound : engine.Sound) {call : MatchingCall} (aligned : engine.Aligned config call) :
    engine.FillsOnce config call := by
  cases call with
  | submit order latency => trivial
  | cancel id requestedAt latency => trivial
  | advanceTo snapshot =>
    intro next fills done
    exact (advanceTo_fillsOnce sound.orderly aligned done).2.2

theorem sound_empty : Sound {} := by
  refine ⟨⟨?_, ?_, ?_, ?_⟩, ?_⟩
  · intro id order found
    cases found
  · intro token id listed
    cases listed
  · intro token
    exact List.nodup_nil
  · intro token book found
    cases found
  · intro token book found
    cases found

/-- No run whose advances are aligned fills a displayed share twice. -/
theorem fillsOnce_run (config : MatchingConfig) (calls : List MatchingCall)
    (aligned : Meets (step config) (Aligned config) {} calls) :
    Meets (step config) (FillsOnce config) {} calls ∧
      ∀ token book, (run (step config) {} calls).books.get? token = some book → book.NotOversold := by
  have keeps : ∀ (engine : MatchingEngine) (call : MatchingCall), engine.Sound → engine.Aligned config call →
      (step config engine call).Sound := fun _ _ sound admitted => sound.step admitted
  have last : (run (step config) {} calls).Sound := invariant keeps sound_empty aligned
  exact ⟨Meets.imp keeps (fun _ _ sound admitted => sound.fillsOnce admitted) sound_empty aligned, last.books⟩

def restingPair (first second : ℚ) : List MatchingCall :=
  let order (id : String) (price : ℚ) : NewOrder :=
    ⟨id, "T", .buy, price, 100, .gtc, false, 0, none⟩
  [.submit (order "a" first) 0, .submit (order "b" second) 0, .advanceTo ⟨"T", 1, [], [], none⟩,
    .advanceTo ⟨"T", 2, [], [⟨1 / 2, 100⟩], none⟩]

theorem fillsOnce_restingPair :
    Meets (step {}) (Aligned {}) {} (restingPair (1 / 2) (55 / 100)) ∧
      Meets (step {}) (FillsOnce {}) {} (restingPair (1 / 2) (55 / 100)) :=
  have aligned : Meets (step {}) (Aligned {}) {} (restingPair (1 / 2) (55 / 100)) := by decide +kernel
  ⟨aligned, (fillsOnce_run {} (restingPair (1 / 2) (55 / 100)) aligned).1⟩

/-- The level of 100 shares is sold to both orders. -/
theorem not_fillsOnce_restingPair : ¬ ∀ (config : MatchingConfig) (calls : List MatchingCall),
    Meets (step config) (FillsOnce config) {} calls ∧
      ∀ token book, (run (step config) {} calls).books.get? token = some book → book.NotOversold := by
  intro all
  have sound := (all {} (restingPair (55 / 100) (55 / 100))).2 "T"
  have oversold : ∃ book, (run (step {}) {} (restingPair (55 / 100) (55 / 100))).books.get? "T" = some book ∧
      (book.snapshot.opposite .buy)[0]? = some ⟨1 / 2, 100⟩ ∧ ¬ book.takenAt .buy 0 ≤ max 0 100 := by
    refine ⟨_, Option.eq_some_of_isSome (by decide +kernel), ?_, ?_⟩
    · decide +kernel
    · decide +kernel
  obtain ⟨book, found, level, more⟩ := oversold
  exact more ((sound book found).levels .buy 0 _ level)

end MatchingEngine

end Callisto.Backtest
