import Callisto.Library.Traversals
import Callisto.Ws.PriceCache

/-! The legacy feed shows the reconstructed book exactly where a frame itself carries that book in the feed's own fields. -/

namespace Callisto.Ws

open Callisto.Library

def OrderbookCall.marketTicker : OrderbookCall → String
  | .snapshot taken => taken.marketTicker
  | .delta change => change.marketTicker

theorem readEnvelope_ok {fields message : Fields} {expected : String} {sid seq : ℤ} (read : readEnvelope fields expected = .ok (sid, seq, message)) :
    Dict.find "type" fields = some (.str expected) ∧ Dict.find "msg" fields = some (.obj message) := by
  unfold readEnvelope at read
  split at read
  next type found =>
    by_cases same : type = expected
    · rw [if_pos same] at read
      obtain ⟨_, -, read⟩ := bind_ok.1 read
      obtain ⟨_, -, read⟩ := bind_ok.1 read
      obtain ⟨mapping, isMapping, read⟩ := bind_ok.1 read
      have equal : mapping = message := congrArg (fun triple => triple.2.2) (Except.ok.inj read)
      unfold readMapping at isMapping
      split at isMapping
      next fieldsOf foundMsg =>
        have inner : fieldsOf = mapping := Except.ok.inj isMapping
        exact ⟨same ▸ found, by rw [foundMsg, inner, equal]⟩
      next => cases isMapping
    · rw [if_neg same] at read
      cases read
  next => cases read

theorem readIdentity_ok {ops : TextOps} {fields : Fields} {ticker market : String} (read : readIdentity ops fields = .ok (ticker, market)) :
    ∃ raw, Dict.find "market_ticker" fields = some (.str raw) ∧ strip raw = ticker ∧ raw ≠ "" := by
  obtain ⟨text, isText, read⟩ := bind_ok.1 read
  have same : text = ticker := by
    by_cases valid : isMarketTicker text = true
    · simp only [if_pos valid] at read
      obtain ⟨other, -, read⟩ := bind_ok.1 read
      by_cases uuid : ops.isUuid other = true
      · rw [if_pos uuid] at read
        exact congrArg Prod.fst (Except.ok.inj read)
      · rw [if_neg uuid] at read
        cases read
    · simp only [if_neg valid] at read
      cases read
  unfold readText at isText
  split at isText
  next raw found =>
    by_cases blank : strip raw = ""
    · rw [if_pos blank] at isText
      cases isText
    · rw [if_neg blank] at isText
      have stripped : strip raw = text := Except.ok.inj isText
      refine ⟨raw, found, stripped.trans same, fun empty => blank ?_⟩
      rw [empty]
      decide
  next => cases isText

theorem readFrame_ok {ops : TextOps} {frame : Fields} {call : OrderbookCall} (read : readFrame ops frame = .ok call) :
    ∃ type message raw, Dict.find "type" frame = some (.str type) ∧ "orderbook".toList <:+: type.toList ∧
      Dict.find "msg" frame = some (.obj message) ∧
      Dict.find "market_ticker" message = some (.str raw) ∧ strip raw = call.marketTicker ∧ raw ≠ "" := by
  unfold readFrame at read
  split at read
  next type found =>
    by_cases isSnapshot : type = "orderbook_snapshot"
    · rw [if_pos isSnapshot] at read
      cases parsed : KalshiOrderbookSnapshot.fromPayload ops frame with
      | error text =>
        rw [parsed] at read
        cases read
      | ok snapshot =>
        rw [parsed] at read
        cases read
        obtain ⟨envelope, isEnvelope, parsed⟩ := bind_ok.1 parsed
        obtain ⟨identity, isIdentity, parsed⟩ := bind_ok.1 parsed
        obtain ⟨yes, -, parsed⟩ := bind_ok.1 parsed
        obtain ⟨no, -, parsed⟩ := bind_ok.1 parsed
        cases parsed
        have outer := readEnvelope_ok isEnvelope
        obtain ⟨raw, foundTicker, stripped, nonempty⟩ := readIdentity_ok isIdentity
        exact ⟨type, envelope.2.2, raw, found, by rw [isSnapshot]; decide, outer.2, foundTicker, stripped, nonempty⟩
    · rw [if_neg isSnapshot] at read
      cases parsed : KalshiOrderbookDelta.fromPayload ops frame with
      | error text =>
        rw [parsed] at read
        cases read
      | ok delta =>
        rw [parsed] at read
        cases read
        obtain ⟨envelope, isEnvelope, parsed⟩ := bind_ok.1 parsed
        obtain ⟨identity, isIdentity, parsed⟩ := bind_ok.1 parsed
        obtain ⟨price, -, parsed⟩ := bind_ok.1 parsed
        obtain ⟨change, -, parsed⟩ := bind_ok.1 parsed
        have ticker : delta.marketTicker = identity.1 := by
          by_cases priced : 0 ≤ price.1 ∧ price.1 ≤ priceUnits
          · simp only [dif_pos priced] at parsed
            obtain ⟨side, -, parsed⟩ := bind_ok.1 parsed
            obtain ⟨client, -, parsed⟩ := bind_ok.1 parsed
            obtain ⟨subaccount, -, parsed⟩ := bind_ok.1 parsed
            obtain ⟨timestamp, -, parsed⟩ := bind_ok.1 parsed
            exact (congrArg KalshiOrderbookDelta.marketTicker (Except.ok.inj parsed)).symm
          · simp only [dif_neg priced] at parsed
            cases parsed
        have outer := readEnvelope_ok isEnvelope
        have sameType : type = "orderbook_delta" := Json.str.inj (Option.some.inj (found.symm.trans outer.1))
        obtain ⟨raw, foundTicker, stripped, nonempty⟩ := readIdentity_ok isIdentity
        exact ⟨type, envelope.2.2, raw, found, by rw [sameType]; decide, outer.2, foundTicker, stripped.trans ticker.symm, nonempty⟩
  next => cases read

theorem KalshiOrderbookState.view_of_ok {state : KalshiOrderbookState} {call : OrderbookCall} {view : KalshiOrderbookView}
    (done : (state.apply call).2 = .ok view) : (state.apply call).1.view = some view ∧ view.marketTicker = call.marketTicker := by
  cases call with
  | snapshot snapshot =>
    change (state.applySnapshot snapshot).2 = .ok view at done
    change (state.applySnapshot snapshot).1.view = some view ∧ _
    rcases state.applySnapshot_cases snapshot with fresh | same | refused
    · rw [fresh.2.2] at done ⊢
      have equal := Except.ok.inj done
      rw [← equal]
      exact ⟨rfl, rfl⟩
    · rw [same.2.2] at done ⊢
      have equal := Except.ok.inj done
      rw [← equal]
      exact ⟨same.2.1, rfl⟩
    · obtain ⟨text, raised⟩ := refused
      rw [raised] at done
      cases done
  | delta delta =>
    change (state.applyDelta delta).2 = .ok view at done
    change (state.applyDelta delta).1.view = some view ∧ _
    rcases state.applyDelta_cases delta with refused | broken | continued
    · obtain ⟨-, text, raised⟩ := refused
      rw [raised] at done
      cases done
    · obtain ⟨current, -, -, -, text, raised⟩ := broken
      rw [raised] at done
      cases done
    · obtain ⟨current, shown, next, nonneg, result⟩ := continued
      rw [result] at done ⊢
      have equal := Except.ok.inj done
      have valid := (KalshiOrderbookState.view_eq_some_iff.1 shown).1
      rw [← equal]
      exact ⟨KalshiOrderbookState.view_eq_some_iff.2 ⟨valid, rfl⟩, next.marketTicker.symm⟩

/-! A sorted ladder is the view's exactly when it has the view's levels. -/

theorem bids_descending (view : KalshiOrderbookView) : view.bids.Pairwise fun first second => second.price < first.price := by
  unfold KalshiOrderbookView.bids
  rw [List.pairwise_map, List.pairwise_reverse]
  refine view.yesLevels.ascending.imp fun less => ?_
  have units : (0 : ℚ) < (priceUnits : ℚ) := by norm_num [priceUnits]
  exact div_lt_div_of_pos_right (Int.cast_lt.2 less) units

theorem asks_ascending (view : KalshiOrderbookView) : view.asks.Pairwise fun first second => first.price < second.price := by
  unfold KalshiOrderbookView.asks
  rw [List.pairwise_map, List.pairwise_reverse]
  refine view.noLevels.ascending.imp fun less => ?_
  have units : (0 : ℚ) < (priceUnits : ℚ) := by norm_num [priceUnits]
  exact sub_lt_sub_left (div_lt_div_of_pos_right (Int.cast_lt.2 less) units) 1

theorem insertionSort_eq_iff_perm {key : OrderBookLevel → ℚ} {levels sorted : List OrderBookLevel}
    (ascending : sorted.Pairwise fun first second => key first < key second) :
    levels.insertionSort (fun first second => key first ≤ key second) = sorted ↔ levels.Perm sorted := by
  have perm := List.perm_insertionSort (fun first second : OrderBookLevel => key first ≤ key second) levels
  constructor
  · intro same
    exact perm.symm.trans (List.Perm.of_eq same)
  · intro reordered
    have total : Std.Total fun first second : OrderBookLevel => key first ≤ key second := ⟨fun first second => le_total _ _⟩
    have transitive : IsTrans OrderBookLevel fun first second => key first ≤ key second := ⟨fun _ _ _ => le_trans⟩
    have ordered := List.pairwise_insertionSort (fun first second : OrderBookLevel => key first ≤ key second) levels
    have both := perm.trans reordered
    have weakly : sorted.Pairwise fun first second => key first ≤ key second := ascending.imp le_of_lt
    have distinct : (sorted.map key).Nodup := List.pairwise_map.2 (ascending.imp ne_of_lt)
    refine List.Perm.eq_of_pairwise (fun first second firstIn inSorted le ge => ?_) ordered weakly both
    exact List.inj_on_of_nodup_map distinct (both.mem_iff.1 firstIn) inSorted (le_antisymm le ge)

theorem sortAsks_eq_iff {levels : List OrderBookLevel} (view : KalshiOrderbookView) : sortAsks levels = view.asks ↔ levels.Perm view.asks :=
  @insertionSort_eq_iff_perm OrderBookLevel.price levels view.asks (asks_ascending view)

theorem sortBids_eq_iff {levels : List OrderBookLevel} (view : KalshiOrderbookView) : sortBids levels = view.bids ↔ levels.Perm view.bids := by
  have negated : sortBids levels = levels.insertionSort fun first second => -first.price ≤ -second.price := by
    unfold sortBids
    simp only [neg_le_neg_iff]
  rw [negated]
  exact @insertionSort_eq_iff_perm (fun level => -level.price) levels view.bids ((bids_descending view).imp fun less => neg_lt_neg less)

structure OrderBook.Sorted (book : OrderBook) : Prop where
  bids : book.bids.Pairwise fun first second => second.price < first.price
  asks : book.asks.Pairwise fun first second => first.price < second.price

theorem Ladder.mem_levels_iff (ladder : Ladder) (price quantity : ℤ) :
    (price, quantity) ∈ ladder.levels ↔ 0 < ladder.quantityAt price ∧ quantity = ladder.quantityAt price := by
  unfold Ladder.quantityAt
  constructor
  · intro member
    rw [(Dict.find_eq_some_iff ladder.nodup).2 member]
    exact ⟨ladder.sized _ member, rfl⟩
  · rintro ⟨positive, rfl⟩
    cases found : Dict.find price ladder.levels with
    | none =>
      rw [found] at positive
      exact absurd positive (lt_irrefl 0)
    | some quantity => exact Dict.mem_of_find found

/-- YES offers and YES bids that list each positive quantity of the two sides once, those of NO as offers at the complements. -/
structure Lists (levels : List OrderBookLevel × List OrderBookLevel) (quantity : MarketSide → ℤ → ℤ) : Prop where
  once : levels.1.Nodup ∧ levels.2.Nodup
  offers : ∀ level, level ∈ levels.1 ↔
    ∃ price, 0 < quantity .no price ∧ level = ⟨1 - price / priceUnits, some (quantity .no price / 100)⟩
  bids : ∀ level, level ∈ levels.2 ↔
    ∃ price, 0 < quantity .yes price ∧ level = ⟨price / priceUnits, some (quantity .yes price / 100)⟩

section Lists
variable {view : KalshiOrderbookView} {quantity : MarketSide → ℤ → ℤ}
  (told : ∀ side price, (view.levels side).quantityAt price = quantity side price)
include told

theorem mem_side (side : MarketSide) (price amount : ℤ) :
    (price, amount) ∈ (view.levels side).levels ↔ 0 < quantity side price ∧ amount = quantity side price := by
  rw [Ladder.mem_levels_iff]
  exact told side price ▸ Iff.rfl

theorem mem_asks (level : OrderBookLevel) :
    level ∈ view.asks ↔ ∃ price, 0 < quantity .no price ∧ level = ⟨1 - price / priceUnits, some (quantity .no price / 100)⟩ := by
  have entries : ∀ price amount, (price, amount) ∈ view.noLevels.levels ↔ _ := mem_side told .no
  simp only [KalshiOrderbookView.asks, List.mem_map, List.mem_reverse, Prod.exists, entries]
  constructor
  · rintro ⟨price, _, ⟨positive, rfl⟩, rfl⟩
    exact ⟨price, positive, rfl⟩
  · rintro ⟨price, positive, rfl⟩
    exact ⟨price, _, ⟨positive, rfl⟩, rfl⟩

theorem mem_bids (level : OrderBookLevel) :
    level ∈ view.bids ↔ ∃ price, 0 < quantity .yes price ∧ level = ⟨price / priceUnits, some (quantity .yes price / 100)⟩ := by
  have entries : ∀ price amount, (price, amount) ∈ view.yesLevels.levels ↔ _ := mem_side told .yes
  simp only [KalshiOrderbookView.bids, List.mem_map, List.mem_reverse, Prod.exists, entries]
  constructor
  · rintro ⟨price, _, ⟨positive, rfl⟩, rfl⟩
    exact ⟨price, positive, rfl⟩
  · rintro ⟨price, positive, rfl⟩
    exact ⟨price, _, ⟨positive, rfl⟩, rfl⟩

theorem lists_iff (levels : List OrderBookLevel × List OrderBookLevel) :
    Lists levels quantity ↔ levels.1.Perm view.asks ∧ levels.2.Perm view.bids := by
  have asks : view.asks.Nodup := (asks_ascending view).imp fun less => ne_of_apply_ne OrderBookLevel.price less.ne
  have bids : view.bids.Nodup := (bids_descending view).imp fun less => ne_of_apply_ne OrderBookLevel.price less.ne'
  constructor
  · intro lists
    exact ⟨(List.perm_ext_iff_of_nodup lists.once.1 asks).2 fun level => (lists.offers level).trans (mem_asks told level).symm,
      (List.perm_ext_iff_of_nodup lists.once.2 bids).2 fun level => (lists.bids level).trans (mem_bids told level).symm⟩
  · rintro ⟨offers, bought⟩
    exact ⟨⟨offers.nodup_iff.2 asks, bought.nodup_iff.2 bids⟩, fun level => offers.mem_iff.trans (mem_asks told level),
      fun level => bought.mem_iff.trans (mem_bids told level)⟩

theorem sorted_lists_iff (book : OrderBook) :
    book.Sorted ∧ Lists (book.asks, book.bids) quantity ↔ book = view.book := by
  rw [lists_iff told]
  constructor
  · rintro ⟨sorted, offers, bought⟩
    have asks : book.asks = view.asks :=
      List.Perm.eq_of_pairwise (fun _ _ _ _ less more => absurd less more.asymm) sorted.asks (asks_ascending view) offers
    have bids : book.bids = view.bids :=
      List.Perm.eq_of_pairwise (fun _ _ _ _ less more => absurd less more.asymm) sorted.bids (bids_descending view) bought
    rw [KalshiOrderbookView.book, ← asks, ← bids]
  · rintro rfl
    exact ⟨⟨bids_descending view, asks_ascending view⟩, List.Perm.refl _, List.Perm.refl _⟩

end Lists

/-- The levels with which a frame replaces the cached book of a ticker, as YES offers and YES bids. -/
def bookUpdate (float : FloatText) (frame : Fields) (ticker : String) : Option (List OrderBookLevel × List OrderBookLevel) :=
  match Dict.find "msg" frame with
  | some (.obj message) =>
    match Dict.find "market_ticker" message with
    | some (.str raw) =>
      if raw = ticker then (readBook float message).map fun book => (book.1, (book.2.filter fun level => level.price < 1).map impliedBid)
      else none
    | _ => none
  | _ => none

/-- The frame's message has none of the fields that the legacy feed reads levels from, and spells its ticker without blanks around it. -/
def Plain (frame : Fields) : Prop :=
  ∀ message, Dict.find "msg" frame = some (.obj message) → Dict.find "orderbook" message = none ∧ Dict.find "yes" message = none ∧
    Dict.find "no" message = none ∧ ∀ raw, Dict.find "market_ticker" message = some (.str raw) → strip raw = raw

theorem get?_handleMessage {float : FloatText} {frame message : Fields} {cache : PriceCache} {type raw ticker : String}
    (hasType : Dict.find "type" frame = some (.str type)) (isBook : "orderbook".toList <:+: type.toList)
    (hasMessage : Dict.find "msg" frame = some (.obj message))
    (hasTicker : Dict.find "market_ticker" message = some (.str raw)) (nonempty : raw ≠ "") :
    (handleMessage float frame cache).get? ticker =
      match bookUpdate float frame ticker with
      | some levels => some ⟨sortBids levels.2, sortAsks levels.1⟩
      | none => cache.get? ticker := by
  have truthy : (Json.obj message).truthy = true := by
    cases message with
    | nil => cases hasTicker
    | cons field rest => rfl
  have payload : messagePayload frame = .obj message := by
    rw [messagePayload, hasMessage, Option.filter_some, if_pos truthy]
  unfold handleMessage bookUpdate
  rw [hasType, payload, hasMessage]
  simp only [hasTicker]
  rw [if_pos (Or.inl isBook)]
  unfold applyOrderbook
  simp only [hasTicker, if_neg nonempty]
  cases readBook float message with
  | none =>
    by_cases same : raw = ticker
    · rw [if_pos same]
      rfl
    · rw [if_neg same]
  | some levels =>
    change (Dict.set cache raw _).get? ticker = _
    rw [Dict.get?_set]
    by_cases same : raw = ticker
    · rw [if_pos same, if_pos same]
      rfl
    · rw [if_neg same, if_neg same]

namespace BookPaths

variable {ops : TextOps} {float : FloatText}

/-- The quantities that the state shows; none before its first snapshot. -/
def held (state : KalshiOrderbookState) (side : MarketSide) (price : ℤ) : ℤ :=
  state.view.elim 0 fun view => (view.levels side).quantityAt price

/-- The quantities that a frame tells: a snapshot its own, a delta those held with one of them changed. -/
def told (state : KalshiOrderbookState) : OrderbookCall → MarketSide → ℤ → ℤ
  | .snapshot taken, side, price => (taken.levels side).quantityAt price
  | .delta change, side, price =>
    if change.side = side ∧ change.price = price then KalshiOrderbookState.addInContext (held state side price) change.delta
    else held state side price

/-- The fields that the feed reads of the frame list the quantities that the frame tells; or the feed reads no book of the market in it,
and the book it has in its cache lists them. -/
def CarriesBook (ops : TextOps) (float : FloatText) (paths : BookPaths) (frame : Fields) : Prop :=
  ∀ call, readFrame ops frame = .ok call →
    match bookUpdate float frame call.marketTicker with
    | some levels => Lists levels (told paths.state call)
    | none => ∃ book, paths.cache.get? call.marketTicker = some book ∧ book.Sorted ∧ Lists (book.asks, book.bids) (told paths.state call)

/-- The frame is a snapshot without a level, or a delta that takes away all that is held. -/
def EmptiesBook (ops : TextOps) (paths : BookPaths) (frame : Fields) : Prop :=
  ∀ call, readFrame ops frame = .ok call →
    match call with
    | .snapshot taken => ∀ side price, (taken.levels side).quantityAt price = 0
    | .delta change => ∀ side price, held paths.state side price = if change.side = side ∧ change.price = price then -change.delta else 0

theorem held_nonneg (state : KalshiOrderbookState) (side : MarketSide) (price : ℤ) : 0 ≤ held state side price := by
  unfold held
  cases state.view with
  | none => exact le_rfl
  | some view => exact Ladder.quantityAt_nonneg _ price

theorem quantityAt_told {state : KalshiOrderbookState} {call : OrderbookCall} {view : KalshiOrderbookView}
    (done : (state.apply call).2 = .ok view) (side : MarketSide) (price : ℤ) :
    (view.levels side).quantityAt price = told state call side price := by
  cases call with
  | snapshot taken =>
    have same : view = KalshiOrderbookState.viewOf taken := by
      change (state.applySnapshot taken).2 = .ok view at done
      rcases state.applySnapshot_cases taken with fresh | again | refused
      · rw [fresh.2.2] at done
        exact (Except.ok.inj done).symm
      · rw [again.2.2] at done
        exact (Except.ok.inj done).symm
      · obtain ⟨text, raised⟩ := refused
        rw [raised] at done
        cases done
    rw [same]
    cases side <;> rfl
  | delta change =>
    change (state.applyDelta change).2 = .ok view at done
    rcases state.applyDelta_cases change with refused | broken | continued
    · obtain ⟨-, text, raised⟩ := refused
      rw [raised] at done
      cases done
    · obtain ⟨current, -, -, -, text, raised⟩ := broken
      rw [raised] at done
      cases done
    · obtain ⟨current, shown, -, nonneg, result⟩ := continued
      rw [result] at done
      rw [← Except.ok.inj done, quantityAt_viewAfter, told, held, shown, Option.elim_some]
      by_cases here : change.side = side ∧ change.price = price
      · rw [if_pos here, if_pos here, KalshiOrderbookState.quantityAfter, here.1, here.2]
      · rw [if_neg here, if_neg here]

theorem agrees_iff_carriesBook {paths : BookPaths} {frame : Fields} (accepts : paths.Accepts ops frame) :
    paths.Agrees ops float frame ↔ paths.CarriesBook ops float frame := by
  obtain ⟨call, view, read, done, -⟩ := accepts
  obtain ⟨type, message, raw, hasType, isBook, hasMessage, hasTicker, -, nonempty⟩ := readFrame_ok read
  obtain ⟨visible, ticker⟩ := KalshiOrderbookState.view_of_ok done
  have tells := quantityAt_told done
  have shown : (paths.step ops float frame).state.view = some view := by
    simp only [step, read]
    exact visible
  have cached : (paths.step ops float frame).cache.get? view.marketTicker = _ :=
    get?_handleMessage hasType isBook hasMessage hasTicker nonempty
  have agrees : paths.Agrees ops float frame ↔ (paths.step ops float frame).cache.get? view.marketTicker = some view.book := by
    unfold Agrees
    rw [shown]
    exact ⟨fun all => all view rfl, fun same _ other => Option.some.inj other ▸ same⟩
  have carries : paths.CarriesBook ops float frame ↔ match bookUpdate float frame call.marketTicker with
      | some levels => Lists levels (told paths.state call)
      | none => ∃ book, paths.cache.get? call.marketTicker = some book ∧ book.Sorted ∧
          Lists (book.asks, book.bids) (told paths.state call) := by
    unfold CarriesBook
    rw [read]
    exact ⟨fun all => all call rfl, fun held _ same => Except.ok.inj same ▸ held⟩
  rw [agrees, carries, cached, ticker]
  cases bookUpdate float frame call.marketTicker with
  | none =>
    dsimp only
    simp only [sorted_lists_iff tells, exists_eq_right]
  | some levels =>
    change some (⟨sortBids levels.2, sortAsks levels.1⟩ : OrderBook) = some ⟨view.bids, view.asks⟩ ↔ Lists levels _
    rw [Option.some_inj, OrderBook.mk.injEq, sortBids_eq_iff, sortAsks_eq_iff, lists_iff tells]
    exact and_comm

theorem lists_nothing_iff {quantity : MarketSide → ℤ → ℤ} (nonneg : ∀ side price, 0 ≤ quantity side price) :
    Lists ([], []) quantity ↔ ∀ side price, quantity side price = 0 := by
  constructor
  · intro lists side price
    by_contra some_
    have positive := lt_of_le_of_ne (nonneg side price) (Ne.symm some_)
    cases side with
    | yes => exact absurd ((lists.bids _).2 ⟨price, positive, rfl⟩) List.not_mem_nil
    | no => exact absurd ((lists.offers _).2 ⟨price, positive, rfl⟩) List.not_mem_nil
  · intro none
    refine ⟨⟨List.nodup_nil, List.nodup_nil⟩, fun level => ?_, fun level => ?_⟩
    · exact iff_of_false List.not_mem_nil fun ⟨price, positive, _⟩ => absurd (none .no price) positive.ne'
    · exact iff_of_false List.not_mem_nil fun ⟨price, positive, _⟩ => absurd (none .yes price) positive.ne'

theorem addInContext_eq_zero_iff {current : ℤ} (nonneg : 0 ≤ current) (change : KalshiOrderbookDelta) :
    KalshiOrderbookState.addInContext current change.delta = 0 ↔ current = -change.delta := by
  rw [eq_neg_iff_add_eq_zero]
  unfold KalshiOrderbookState.addInContext
  by_cases positive : 0 < current + change.delta
  · exact iff_of_false (Rounding.roundSig_pos (by decide) positive).ne' positive.ne'
  · have small : (current + change.delta).natAbs < 10 ^ contextPrecision := by
      have bounded := change.bounded
      simp only [quantityBound, abs_lt, contextPrecision] at *
      omega
    rw [(Rounding.roundSig_eq_self_iff _ _).2 (Rounding.representable_of_small small)]

theorem carriesBook_iff_emptiesBook {paths : BookPaths} {frame : Fields} (accepts : paths.Accepts ops frame) (plain : Plain frame) :
    paths.CarriesBook ops float frame ↔ paths.EmptiesBook ops frame := by
  obtain ⟨call, view, read, done, -⟩ := accepts
  obtain ⟨type, message, raw, hasType, isBook, hasMessage, hasTicker, stripped, nonempty⟩ := readFrame_ok read
  obtain ⟨noBook, noYes, noNo, spelled⟩ := plain message hasMessage
  refine forall₂_congr fun other same => ?_
  obtain rfl : call = other := Except.ok.inj (read.symm.trans same)
  have empty : bookUpdate float frame call.marketTicker = some ([], []) := by
    have name : raw = call.marketTicker := by rw [← stripped, spelled raw hasTicker]
    have nothing : readBook float message = some ([], []) := by
      unfold readBook
      simp only [noBook, Option.bind_eq_bind, Option.bind_some, noYes, noNo]
      rfl
    unfold bookUpdate
    rw [hasMessage]
    simp only [hasTicker, if_pos name, nothing]
    rfl
  rw [empty]
  have nonneg : ∀ side price, 0 ≤ told paths.state call side price := by
    intro side price
    rw [← quantityAt_told done]
    exact Ladder.quantityAt_nonneg _ price
  change Lists ([], []) (told paths.state call) ↔ _
  rw [lists_nothing_iff nonneg]
  cases call with
  | snapshot taken => exact Iff.rfl
  | delta change =>
    refine forall₂_congr fun side price => ?_
    change (if change.side = side ∧ change.price = price then _ else _) = 0 ↔ held paths.state side price = _
    by_cases here : change.side = side ∧ change.price = price
    · rw [if_pos here, if_pos here, addInContext_eq_zero_iff (held_nonneg paths.state side price)]
    · rw [if_neg here, if_neg here]

def sampleUuid : String := "9b0f6b43-5b68-4f9f-9f02-9a2d1b8ac1a1"

def sampleOps : TextOps where
  decimal text := if text = "0.45" then some ⟨45, -2⟩ else if text = "0.55" then some ⟨55, -2⟩ else if text = "10.00" then some ⟨1000, -2⟩ else none
  isUuid text := text = sampleUuid

def bidFrame : Fields :=
  [("type", .str "orderbook_snapshot"), ("sid", .int 1), ("seq", .int 1), ("msg", .obj [("market_ticker", .str "KX"),
    ("market_id", .str sampleUuid), ("yes_dollars_fp", .arr [.arr [.str "0.45", .str "10.00"]])])]

def emptyPaths : BookPaths := ⟨⟨1, "KX", sampleUuid, none, none, false⟩, Dict.empty⟩

theorem accepted_bidFrame : Runs.Meets (step sampleOps fun _ => none) (Accepts sampleOps) emptyPaths [bidFrame] := by
  refine ⟨⟨.snapshot ⟨1, 1, "KX", sampleUuid, ⟨[(450000, 1000)], by decide, by decide, by decide⟩, Ladder.empty⟩,
    ⟨1, 1, "KX", sampleUuid, ⟨[(450000, 1000)], by decide, by decide, by decide⟩, Ladder.empty⟩, ?_, ?_, by decide, by decide⟩, trivial⟩
  · rfl
  · rfl

def plainFrame : Fields :=
  [("type", .str "orderbook_snapshot"), ("sid", .int 1), ("seq", .int 1),
    ("msg", .obj [("market_ticker", .str "KX"), ("market_id", .str sampleUuid)])]

/-- Ten contracts are bid for NO at 55 cents; the message has the offer of YES at 45 cents beside it. -/
def offerFrame : Fields :=
  [("type", .str "orderbook_delta"), ("sid", .int 1), ("seq", .int 2),
    ("msg", .obj [("market_ticker", .str "KX"), ("market_id", .str sampleUuid), ("price_dollars", .str "0.55"), ("delta_fp", .str "10.00"),
      ("side", .str "no"), ("yes", .arr [.arr [.int 45, .int 10]])])]

theorem accepted_offerFrame :
    Runs.Meets (step sampleOps fun _ => none) (Accepts sampleOps) emptyPaths [plainFrame, offerFrame] := by
  refine ⟨⟨.snapshot ⟨1, 1, "KX", sampleUuid, Ladder.empty, Ladder.empty⟩, ⟨1, 1, "KX", sampleUuid, Ladder.empty, Ladder.empty⟩,
    rfl, rfl, by decide, by decide⟩, ?_, trivial⟩
  refine ⟨.delta ⟨1, 2, "KX", sampleUuid, 550000, 1000, .no, none, none, none, by decide, by decide⟩,
    ⟨1, 2, "KX", sampleUuid, Ladder.empty, ⟨[(550000, 1000)], by decide, by decide, by decide⟩⟩, ?_, ?_, by decide, by decide⟩
  · rfl
  · rfl

theorem agrees_of_shown {paths : BookPaths} {frame : Fields} {ticker : String} {book : OrderBook}
    (shown : (paths.step ops float frame).state.view.map (fun view => (view.marketTicker, view.book)) = some (ticker, book))
    (cached : (paths.step ops float frame).cache.get? ticker = some book) : paths.Agrees ops float frame := by
  intro view visible
  rw [visible, Option.map_some, Option.some_inj, Prod.mk.injEq] at shown
  rw [shown.1, shown.2]
  exact cached

end BookPaths

end Callisto.Ws
