import Callisto.Backtest.BookTakings

/-! What the walks over the levels of a book do, for orders that take and for orders at rest. -/

namespace Callisto.Backtest

open Callisto.Library

structure Fill.Of (fill : Fill) (order : NewOrder) : Prop where
  orderId : fill.orderId = order.orderId
  tokenId : fill.tokenId = order.tokenId
  side : fill.side = order.side
  positive : 0 < fill.size

def sizesOf (fills : List Fill) : List (Side × ℚ) := fills.map fun fill => (fill.side, fill.size)

def takingSizes (takings : List Taking) : List (Side × ℚ) := takings.map fun taking => (taking.side, taking.size)

/-- A walk that has gone on: only fills of its order were added, each taken from the book. -/
structure Walk.Goes (walk after : Walk) : Prop where
  same : after.order.toNewOrder = walk.order.toNewOrder
  state : after.order.state = walk.order.state
  received : after.order.venueReceivedAt = walk.order.venueReceivedAt
  bounded : 0 ≤ walk.remaining → 0 ≤ after.remaining
  grown : ∀ side price, walk.book.consumed side price ≤ after.book.consumed side price
  fills : ∃ more, after.produced = walk.produced ++ more ∧ (∀ fill ∈ more, fill.Of walk.order.toNewOrder) ∧
    after.order.filledSize = walk.order.filledSize + (more.map Fill.size).sum ∧
    after.remaining = walk.remaining - (more.map Fill.size).sum ∧
    takingSizes after.book.takings = takingSizes walk.book.takings ++ sizesOf more

namespace Walk

theorem goes_refl (walk : Walk) : walk.Goes walk :=
  ⟨rfl, rfl, rfl, id, fun _ _ => le_rfl, [], by simp [sizesOf]⟩

theorem Goes.trans {first second third : Walk} (before : first.Goes second) (after : second.Goes third) :
    first.Goes third := by
  obtain ⟨more, produced, of_, filled, remaining, takings⟩ := before.fills
  obtain ⟨later, producedLater, ofLater, filledLater, remainingLater, takingsLater⟩ := after.fills
  refine ⟨after.same.trans before.same, after.state.trans before.state, after.received.trans before.received,
    fun nonneg => after.bounded (before.bounded nonneg), fun side price => (before.grown side price).trans (after.grown side price),
    more ++ later, ?_, ?_, ?_, ?_, ?_⟩
  · rw [producedLater, produced, List.append_assoc]
  · intro fill member
    rcases List.mem_append.1 member with old | new
    · exact of_ fill old
    · rw [← before.same]
      exact ofLater fill new
  · rw [filledLater, filled, List.map_append, List.sum_append]
    ring
  · rw [remainingLater, remaining, List.map_append, List.sum_append]
    ring
  · rw [takingsLater, takings, sizesOf, sizesOf, sizesOf, List.map_append, List.append_assoc]

theorem goes_fillFrom {walk : Walk} {fill : Fill} (of_ : fill.Of walk.order.toNewOrder) (level : ℕ) (consumedAt : ℚ)
    (left : fill.size ≤ walk.remaining) : walk.Goes (walk.fillFrom level fill consumedAt) := by
  refine ⟨rfl, rfl, rfl, fun _ => ?_, fun side price => ?_, [fill], rfl, ?_, ?_, ?_, ?_⟩
  · simp only [fillFrom]
    linarith
  · have positive := of_.positive
    simp only [fillFrom, ResidualBook.consumed_take]
    split_ifs <;> linarith
  · intro other member
    rw [List.mem_singleton.1 member]
    exact of_
  · simp [fillFrom, BacktestOrder.record]
  · simp [fillFrom]
  · simp [fillFrom, takingSizes, sizesOf, of_.side]

theorem goes_noted (walk : Walk) {order : BacktestOrder} (same : order.toNewOrder = walk.order.toNewOrder)
    (state : order.state = walk.order.state) (received : order.venueReceivedAt = walk.order.venueReceivedAt)
    (filled : order.filledSize = walk.order.filledSize) : walk.Goes { walk with order := order } :=
  ⟨same, state, received, id, fun _ _ => le_rfl, [], by simp [sizesOf, filled]⟩

end Walk

theorem ResidualBook.remaining_drop {book : ResidualBook} {side : Side} {index : ℕ} {price qty : ℚ}
    {rest : List (ℚ × ℚ)} (suffix : (book.remaining side).drop index = (price, qty) :: rest) :
    (book.remaining side).drop (index + 1) = rest ∧ ∃ level, (book.snapshot.opposite side)[index]? = some level ∧
      price = level.price ∧ qty = max 0 (level.size - book.consumed side level.price) := by
  have tail : (book.remaining side).drop (index + 1) = rest := by
    rw [← List.tail_drop, suffix, List.tail_cons]
  have head : (book.remaining side)[index]? = some (price, qty) := by
    rw [← List.head?_drop, suffix, List.head?_cons]
  refine ⟨tail, ?_⟩
  simp only [ResidualBook.remaining, List.getElem?_map, Option.map_eq_some_iff, Prod.mk.injEq] at head
  obtain ⟨level, found, samePrice, sameQty⟩ := head
  exact ⟨level, found, samePrice.symm, sameQty.symm⟩

/-- The levels within a limit, from the first on without a gap, are used up. -/
def ResidualBook.SpentFrom (book : ResidualBook) (side : Side) (limit : ℚ) (first : ℕ) : Prop :=
  ∀ index level, first ≤ index → (book.snapshot.opposite side)[index]? = some level →
    (∀ earlier other, first ≤ earlier → earlier ≤ index → (book.snapshot.opposite side)[earlier]? = some other →
      ¬ side.Beyond limit other.price) → level.size ≤ book.consumed side level.price

namespace MatchingConfig

variable {config : MatchingConfig}

theorem takerWalk_spec {now : Instant} {impactBps : ℚ} {start : ResidualBook} (recorded : ∀ side index, start.Recorded side index)
    (levels : List (ℚ × ℚ)) {walk : Walk} {index : ℕ} (suffix : (start.remaining walk.order.side).drop index = levels)
    (walked : Walked start walk.order.side (fun _ => True) index walk.book)
    (grown : ∀ side price, start.consumed side price ≤ walk.book.consumed side price) :
    let after := config.takerWalk now impactBps index levels walk
    walk.Goes after ∧ (∃ reached, Walked start walk.order.side (fun _ => True) reached after.book) ∧
      (0 < after.remaining → after.book.SpentFrom walk.order.side walk.order.price index) := by
  induction levels generalizing walk index with
  | nil =>
    refine ⟨walk.goes_refl, ⟨index, walked⟩, fun _ other level later found _ => ?_⟩
    simp only [takerWalk] at found ⊢
    rw [walked.snapshot] at found
    have short : (start.snapshot.opposite walk.order.side).length ≤ index := by
      have length := congrArg List.length suffix
      simp only [ResidualBook.remaining, List.length_drop, List.length_map, List.length_nil] at length
      omega
    have inside := (List.getElem?_eq_some_iff.1 found).1
    omega
  | cons entry rest ih =>
    obtain ⟨price, qty⟩ := entry
    obtain ⟨tail, level, found, rfl, rfl⟩ := ResidualBook.remaining_drop suffix
    -- what is left of the level is used up once the walk has gone past it with size left to fill
    have past : ∀ after : Walk, (∃ reached, Walked start walk.order.side (fun _ => True) reached after.book) →
        level.size ≤ after.book.consumed walk.order.side level.price →
        after.book.SpentFrom walk.order.side walk.order.price (index + 1) →
          after.book.SpentFrom walk.order.side walk.order.price index := by
      intro after ⟨reached, other⟩ spent later which held from_ at_ near
      rcases Nat.eq_or_lt_of_le from_ with rfl | beyond
      · rw [other.snapshot, found] at at_
        cases at_
        exact spent
      · exact later which held (by omega) at_ fun earlier between low => near earlier between (by omega)
    simp only [takerWalk]
    split_ifs with done empty beyond
    · exact ⟨walk.goes_refl, ⟨index, walked⟩, fun more => absurd more (not_lt.2 done)⟩
    · obtain ⟨goes, reached, spent⟩ := ih tail walked.skip grown
      refine ⟨goes, reached, fun more => past _ reached ?_ (spent more)⟩
      have used : level.size ≤ start.consumed walk.order.side level.price := by
        have bound := (le_max_right 0 (level.size - start.consumed walk.order.side level.price)).trans empty
        linarith
      exact used.trans ((grown _ _).trans (goes.grown _ _))
    · refine ⟨walk.goes_refl, ⟨index, walked⟩, fun _ which held from_ at_ near => ?_⟩
      rw [walked.snapshot] at near
      exact absurd beyond (near index level le_rfl from_ found)
    · have some_ : 0 < max 0 (level.size - start.consumed walk.order.side level.price) := not_le.1 empty
      have left : 0 < walk.remaining := not_le.1 done
      generalize fillIs : config.takerFill now walk level.price
        (min (max 0 (level.size - start.consumed walk.order.side level.price)) walk.remaining) impactBps = fill
      have size : fill.size = min (max 0 (level.size - start.consumed walk.order.side level.price)) walk.remaining := by
        rw [← fillIs]
        rfl
      have of_ : fill.Of walk.order.toNewOrder := by
        refine ⟨?_, ?_, ?_, ?_⟩
        · rw [← fillIs]; rfl
        · rw [← fillIs]; rfl
        · rw [← fillIs]; rfl
        · rw [size]
          exact lt_min some_ left
      have fits : fill.size ≤ walk.remaining := by
        rw [size]
        exact min_le_right _ _
      have next := walked.take found (recorded _ _) of_.positive (by rw [size]; exact min_le_left _ _) beyond fun _ => rfl
      have step := Walk.goes_fillFrom of_ index level.price fits
      have nextGrown : ∀ side price, start.consumed side price ≤
          (walk.fillFrom index fill level.price).book.consumed side price :=
        fun side price => (grown side price).trans (step.grown side price)
      have nextSuffix : (start.remaining (walk.fillFrom index fill level.price).order.side).drop (index + 1) = rest := tail
      obtain ⟨goes, reached, spent⟩ := ih nextSuffix next nextGrown
      refine ⟨step.trans goes, reached, fun more => past _ reached ?_ (spent more)⟩
      -- the fill is all of the level, since the walk had size left after it
      have all : fill.size = max 0 (level.size - start.consumed walk.order.side level.price) := by
        have leftover : 0 < walk.remaining - fill.size := by
          obtain ⟨more', -, moreOf, -, remaining, -⟩ := goes.fills
          have nonneg : 0 ≤ (more'.map Fill.size).sum := by
            apply List.sum_nonneg
            intro each member
            obtain ⟨one, mem, rfl⟩ := List.mem_map.1 member
            exact (moreOf one mem).positive.le
          have equal : (walk.fillFrom index fill level.price).remaining = walk.remaining - fill.size := rfl
          linarith
        rw [size]
        apply min_eq_left
        by_contra short
        rw [size, min_eq_right (not_le.1 short).le, sub_self] at leftover
        exact lt_irrefl _ leftover
      have consumed : (walk.fillFrom index fill level.price).book.consumed walk.order.side level.price =
          walk.book.consumed walk.order.side level.price + fill.size := by
        simp [Walk.fillFrom]
      have bound := le_max_right 0 (level.size - start.consumed walk.order.side level.price)
      have before := grown walk.order.side level.price
      have later := goes.grown walk.order.side level.price
      rw [consumed, all] at later
      linarith

theorem cappedTake_spec (order : BacktestOrder) (observedAt : Instant) (candidate : ℚ) :
    (config.cappedTake order observedAt candidate).1 ≤ candidate ∧
      (config.cappedTake order observedAt candidate).2.1.toNewOrder = order.toNewOrder ∧
      (config.cappedTake order observedAt candidate).2.1.state = order.state ∧
      (config.cappedTake order observedAt candidate).2.1.venueReceivedAt = order.venueReceivedAt ∧
      (config.cappedTake order observedAt candidate).2.1.filledSize = order.filledSize := by
  unfold cappedTake
  split_ifs
  · exact ⟨le_rfl, rfl, rfl, rfl, rfl⟩
  · cases config.fillProbability order observedAt with
    | none => exact ⟨le_rfl, rfl, rfl, rfl, rfl⟩
    | some probability => exact ⟨min_le_left _ _, rfl, rfl, rfl, rfl⟩

/-- An order at rest only meets levels whose record covers what was taken from them, and it keeps the
record where its own price is that of the level. -/
theorem restingWalk_spec {start : ResidualBook} {keeps : ℕ → Prop} (levels : List (ℚ × ℚ)) {walk : Walk} {index : ℕ}
    (recorded : ∀ index level, (start.snapshot.opposite walk.order.side)[index]? = some level →
      ¬ walk.order.side.Beyond walk.order.price level.price → start.Recorded walk.order.side index)
    (aligned : ∀ index level, keeps index → (start.snapshot.opposite walk.order.side)[index]? = some level →
      ¬ walk.order.side.Beyond walk.order.price level.price → walk.order.price = level.price)
    (suffix : (start.remaining walk.order.side).drop index = levels)
    (walked : Walked start walk.order.side keeps index walk.book) :
    let after := config.restingWalk index levels walk
    walk.Goes after ∧ ∃ reached, Walked start walk.order.side keeps reached after.book := by
  induction levels generalizing walk index with
  | nil => exact ⟨walk.goes_refl, index, walked⟩
  | cons entry rest ih =>
    obtain ⟨price, qty⟩ := entry
    obtain ⟨tail, level, found, rfl, rfl⟩ := ResidualBook.remaining_drop suffix
    simp only [restingWalk]
    by_cases done : walk.remaining ≤ 0
    · rw [if_pos done]
      exact ⟨walk.goes_refl, index, walked⟩
    rw [if_neg done]
    by_cases beyond : walk.order.side.Beyond walk.order.price level.price
    · rw [if_pos beyond]
      exact ⟨walk.goes_refl, index, walked⟩
    rw [if_neg beyond]
    have spec := @cappedTake_spec config walk.order walk.book.snapshot.observedAt
      (min (max 0 (level.size - start.consumed walk.order.side level.price)) walk.remaining)
    obtain ⟨capped, same, state, received, filled⟩ := spec
    generalize config.cappedTake walk.order walk.book.snapshot.observedAt
      (min (max 0 (level.size - start.consumed walk.order.side level.price)) walk.remaining) = outcome at *
    obtain ⟨take, order, probability⟩ := outcome
    simp only at capped same state received filled ⊢
    have noted := walk.goes_noted same state received filled
    have sameSide : order.side = walk.order.side := by rw [same]
    have samePrice : order.price = walk.order.price := by rw [same]
    split_ifs with nothing
    · obtain ⟨goes, reached⟩ := @ih { walk with order := order } (index + 1)
        (by simpa only [sameSide, samePrice] using recorded) (by simpa only [sameSide, samePrice] using aligned)
        (by simpa only [sameSide] using tail) (by simpa only [sameSide] using walked.skip)
      exact ⟨noted.trans goes, by simpa only [sameSide] using reached⟩
    · generalize fillIs : config.restingFill walk.book.snapshot order take probability = fill
      have size : fill.size = take := by rw [← fillIs]; rfl
      have of_ : fill.Of order.toNewOrder := by
        refine ⟨?_, ?_, ?_, ?_⟩
        · rw [← fillIs]; rfl
        · rw [← fillIs]; rfl
        · rw [← fillIs]; rfl
        · rw [size]
          exact not_le.1 nothing
      have fits : fill.size ≤ walk.remaining := by
        rw [size]
        exact capped.trans (min_le_right _ _)
      have left : fill.size ≤ max 0 (level.size - start.consumed walk.order.side level.price) := by
        rw [size]
        exact capped.trans (min_le_left _ _)
      have next := walked.take found (recorded index level found beyond) of_.positive left beyond fun kept =>
        aligned index level kept found beyond
      have step := @Walk.goes_fillFrom { walk with order := order } fill of_ index order.price fits
      obtain ⟨goes, reached⟩ := @ih (Walk.fillFrom { walk with order := order } index fill order.price) (index + 1)
        (by simpa only [Walk.fillFrom, BacktestOrder.record, sameSide, samePrice] using recorded)
        (by simpa only [Walk.fillFrom, BacktestOrder.record, sameSide, samePrice] using aligned)
        (by simpa only [Walk.fillFrom, BacktestOrder.record, sameSide] using tail)
        (by simpa only [Walk.fillFrom, BacktestOrder.record, sameSide, samePrice] using next)
      exact ⟨(noted.trans step).trans goes,
        by simpa only [Walk.fillFrom, BacktestOrder.record, sameSide] using reached⟩

theorem restingWalk_spent (levels : List (ℚ × ℚ)) {walk : Walk} {index : ℕ}
    (suffix : (walk.book.remaining walk.order.side).drop index = levels)
    (spent : walk.book.SpentFrom walk.order.side walk.order.price index) :
    config.restingWalk index levels walk = walk := by
  induction levels generalizing index with
  | nil => rfl
  | cons entry rest ih =>
    obtain ⟨price, qty⟩ := entry
    obtain ⟨tail, level, found, rfl, rfl⟩ := ResidualBook.remaining_drop suffix
    simp only [restingWalk]
    by_cases done : walk.remaining ≤ 0
    · rw [if_pos done]
    rw [if_neg done]
    by_cases beyond : walk.order.side.Beyond walk.order.price level.price
    · rw [if_pos beyond]
    rw [if_neg beyond]
    have used : level.size ≤ walk.book.consumed walk.order.side level.price := by
      apply spent index level le_rfl found
      intro earlier other low high at_
      have same : earlier = index := by omega
      subst same
      rw [found] at at_
      cases at_
      exact beyond
    have nothing : min (max 0 (level.size - walk.book.consumed walk.order.side level.price)) walk.remaining ≤ 0 := by
      apply (min_le_left _ _).trans
      exact max_le le_rfl (by linarith)
    have capped : config.cappedTake walk.order walk.book.snapshot.observedAt
        (min (max 0 (level.size - walk.book.consumed walk.order.side level.price)) walk.remaining) =
          (min (max 0 (level.size - walk.book.consumed walk.order.side level.price)) walk.remaining, walk.order, none) := by
      unfold cappedTake
      rw [if_pos nothing]
    rw [capped]
    simp only [if_pos nothing]
    apply ih tail
    intro which held from_ at_ near
    apply spent which held (by omega) at_
    intro earlier other low high low_
    rcases Nat.eq_or_lt_of_le low with rfl | later
    · rw [found] at low_
      cases low_
      exact beyond
    · exact near earlier other (by omega) high low_

end MatchingConfig

structure ResidualBook.Open (book : ResidualBook) : Prop where
  recorded : ∀ side index, book.Recorded side index
  fitted : ∀ side index, book.Fitted side index
  placed : book.Placed

theorem open_fresh (snapshot : BookSnapshot) : ResidualBook.Open { snapshot := snapshot } := by
  have nothing : ∀ side index, ResidualBook.takenAt { snapshot := snapshot } side index = 0 := fun _ _ => rfl
  refine ⟨fun side index level _ => ?_, fun side index level _ => ?_, fun taking member => by cases member⟩
  · rw [nothing]
    cases side <;> exact le_rfl
  · rw [nothing]
    exact le_max_left _ _

theorem Walked.open_ {start book : ResidualBook} {side : Side} {reached : ℕ} (open_ : start.Open)
    (walked : Walked start side (fun _ => True) reached book)
    (grown : ∀ side price, start.consumed side price ≤ book.consumed side price) : book.Open := by
  have sides : ∀ other, other = side ∨ other = side.opposing := by
    intro other
    cases side <;> cases other <;> simp [Side.opposing]
  refine ⟨fun other index => ?_, fun other index => ?_, walked.placed⟩
  · rcases sides other with rfl | rfl
    · exact walked.recorded index trivial
    · intro level found
      rw [walked.snapshot] at found
      rw [walked.other]
      exact (open_.recorded _ index level found).trans (grown _ _)
  · rcases sides other with rfl | rfl
    · exact walked.fitted index
    · intro level found
      rw [walked.snapshot] at found
      rw [walked.other]
      exact open_.fitted _ index level found

theorem BacktestOrder.remaining_of_pos {order : BacktestOrder} (left : 0 < order.remainingSize) :
    order.remainingSize = order.size - order.filledSize := by
  unfold remainingSize at left ⊢
  rcases le_total (order.size - order.filledSize) 0 with none_ | some_
  · rw [max_eq_left none_] at left
    exact absurd left (lt_irrefl _)
  · exact max_eq_right some_

/-- An order that takes from an open book leaves it open, and used up within its limit if it could not
be filled. -/
theorem MatchingConfig.consumeLevels_spec {config : MatchingConfig} (now : Instant) (order : BacktestOrder)
    {book : ResidualBook} (open_ : book.Open) (produced : List Fill) :
    let after := config.consumeLevels now order book produced
    Walk.Goes ⟨order, book, produced, order.remainingSize⟩ after ∧ after.book.Open ∧
      after.book.snapshot = book.snapshot ∧
      (0 < after.order.remainingSize → after.book.SpentFrom order.side order.price 0) := by
  unfold consumeLevels
  split_ifs with full
  · exact ⟨Walk.goes_refl _, open_, rfl, fun more => absurd more (not_lt.2 full)⟩
  · have walked : Walked book order.side (fun _ => True) 0 book :=
      Walked.refl (open_.fitted _) (fun index _ => open_.recorded _ index) open_.placed 0
    obtain ⟨goes, ⟨reached, walkedAfter⟩, spent⟩ := @takerWalk_spec config now _ book open_.recorded _
      ⟨order, book, produced, order.remainingSize⟩ 0 List.drop_zero walked fun _ _ => le_rfl
    refine ⟨goes, walkedAfter.open_ open_ goes.grown, walkedAfter.snapshot, fun more => spent ?_⟩
    obtain ⟨added, -, -, filled, remaining, -⟩ := goes.fills
    have before := BacktestOrder.remaining_of_pos (not_le.1 full)
    have after := BacktestOrder.remaining_of_pos more
    rw [after, filled, goes.same] at more
    rw [remaining]
    simp only at more ⊢
    linarith

end Callisto.Backtest
