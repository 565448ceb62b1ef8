import Callisto.Library.Dict
import Callisto.Library.Rounding
import Mathlib.Data.List.Sort

/-! The orderbook of one acknowledged subscription, rebuilt from a snapshot and the deltas after it.
Prices are millionths of a dollar and quantities hundredths of a contract. -/

namespace Callisto.Ws

open Callisto.Library

inductive MarketSide where
  | yes
  | no
  deriving DecidableEq, Repr

def priceUnits : ℤ := 1000000

/-- One more than the largest magnitude, in hundredths, that the fixed-point parser lets through. -/
def quantityBound : ℤ := 10 ^ 28

def contextPrecision : ℕ := 28

/-- The levels of one side: strictly ascending prices of at most a dollar, each with a quantity. -/
structure Ladder where
  levels : List (ℤ × ℤ)
  ascending : levels.Pairwise fun first second => first.1 < second.1
  priced : ∀ level ∈ levels, 0 ≤ level.1 ∧ level.1 ≤ priceUnits
  sized : ∀ level ∈ levels, 0 < level.2
  deriving DecidableEq

def Ladder.empty : Ladder := ⟨[], List.Pairwise.nil, by simp, by simp⟩

/-- `sorted(levels.items())`: the prices are different, so they alone decide the order. -/
def sortLevels (levels : List (ℤ × ℤ)) : List (ℤ × ℤ) := levels.insertionSort fun first second => first.1 ≤ second.1

theorem perm_sortLevels (levels : List (ℤ × ℤ)) : (sortLevels levels).Perm levels :=
  List.perm_insertionSort _ levels

theorem ascending_sortLevels {levels : List (ℤ × ℤ)} (nodup : (levels.map Prod.fst).Nodup) :
    (sortLevels levels).Pairwise fun first second => first.1 < second.1 := by
  have total : Std.Total fun first second : ℤ × ℤ => first.1 ≤ second.1 := ⟨fun first second => le_total _ _⟩
  have transitive : IsTrans (ℤ × ℤ) fun first second => first.1 ≤ second.1 := ⟨fun _ _ _ => le_trans⟩
  have ordered : (sortLevels levels).Pairwise fun first second => first.1 ≤ second.1 :=
    List.pairwise_insertionSort _ levels
  have different : (sortLevels levels).Pairwise fun first second => first.1 ≠ second.1 := by
    rw [← List.pairwise_map]
    exact ((perm_sortLevels levels).map Prod.fst).nodup_iff.2 nodup
  exact (ordered.and different).imp fun both => lt_of_le_of_ne both.1 both.2

namespace Ladder

theorem nodup (ladder : Ladder) : (ladder.levels.map Prod.fst).Nodup :=
  List.pairwise_map.2 (ladder.ascending.imp ne_of_lt)

def quantityAt (ladder : Ladder) (price : ℤ) : ℤ := (Dict.find price ladder.levels).getD 0

def ofEntries (levels : List (ℤ × ℤ)) (nodup : (levels.map Prod.fst).Nodup)
    (priced : ∀ level ∈ levels, 0 ≤ level.1 ∧ level.1 ≤ priceUnits) (sized : ∀ level ∈ levels, 0 < level.2) :
    Ladder where
  levels := sortLevels levels
  ascending := ascending_sortLevels nodup
  priced level member := priced level ((perm_sortLevels levels).mem_iff.1 member)
  sized level member := sized level ((perm_sortLevels levels).mem_iff.1 member)

/-- The levels with a new quantity at a price, which a quantity of zero deletes. -/
def withQuantity (ladder : Ladder) (price quantity : ℤ) (priced : 0 ≤ price ∧ price ≤ priceUnits)
    (nonneg : 0 ≤ quantity) : Ladder :=
  if zero : quantity = 0 then
    ofEntries (Dict.drop price ladder.levels) (Dict.nodup_drop ladder.nodup)
      (fun level member => ladder.priced level ((Dict.drop_sublist price ladder.levels).subset member))
      (fun level member => ladder.sized level ((Dict.drop_sublist price ladder.levels).subset member))
  else
    ofEntries (Dict.put price quantity ladder.levels) (Dict.nodup_put ladder.nodup)
      (fun level member => by
        rcases Dict.mem_put member with rfl | old
        · exact priced
        · exact ladder.priced level old)
      (fun level member => by
        rcases Dict.mem_put member with rfl | old
        · exact lt_of_le_of_ne nonneg (Ne.symm zero)
        · exact ladder.sized level old)

theorem quantityAt_withQuantity (ladder : Ladder) (price quantity other : ℤ)
    (priced : 0 ≤ price ∧ price ≤ priceUnits) (nonneg : 0 ≤ quantity) :
    (ladder.withQuantity price quantity priced nonneg).quantityAt other =
      if price = other then quantity else ladder.quantityAt other := by
  unfold withQuantity quantityAt
  split_ifs with zero same same
  · simp only [ofEntries]
    rw [Dict.find_perm (perm_sortLevels _) (Dict.nodup_drop ladder.nodup), ← same,
      Dict.find_drop_self ladder.nodup, zero, Option.getD_none]
  · simp only [ofEntries]
    rw [Dict.find_perm (perm_sortLevels _) (Dict.nodup_drop ladder.nodup), Dict.find_drop_other same]
  · simp only [ofEntries]
    rw [Dict.find_perm (perm_sortLevels _) (Dict.nodup_put ladder.nodup), Dict.find_put, if_pos same,
      Option.getD_some]
  · simp only [ofEntries]
    rw [Dict.find_perm (perm_sortLevels _) (Dict.nodup_put ladder.nodup), Dict.find_put, if_neg same]

theorem quantityAt_nonneg (ladder : Ladder) (price : ℤ) : 0 ≤ ladder.quantityAt price := by
  unfold quantityAt
  cases found : Dict.find price ladder.levels with
  | none => exact le_rfl
  | some quantity => exact (ladder.sized _ (Dict.mem_of_find found)).le

end Ladder

/-- A parsed `orderbook_snapshot`. -/
structure KalshiOrderbookSnapshot where
  sid : ℤ
  seq : ℤ
  marketTicker : String
  marketId : String
  yesLevels : Ladder
  noLevels : Ladder
  deriving DecidableEq

/-- A parsed `orderbook_delta`. -/
structure KalshiOrderbookDelta where
  sid : ℤ
  seq : ℤ
  marketTicker : String
  marketId : String
  price : ℤ
  delta : ℤ
  side : MarketSide
  clientOrderId : Option String
  subaccount : Option ℤ
  timestampMs : Option ℤ
  priced : 0 ≤ price ∧ price ≤ priceUnits
  bounded : |delta| < quantityBound
  deriving DecidableEq

structure KalshiOrderbookView where
  sid : ℤ
  seq : ℤ
  marketTicker : String
  marketId : String
  yesLevels : Ladder
  noLevels : Ladder
  deriving DecidableEq

def KalshiOrderbookView.levels (view : KalshiOrderbookView) : MarketSide → Ladder
  | .yes => view.yesLevels
  | .no => view.noLevels

def KalshiOrderbookSnapshot.levels (snapshot : KalshiOrderbookSnapshot) : MarketSide → Ladder
  | .yes => snapshot.yesLevels
  | .no => snapshot.noLevels

/-- What a state needs once it is invalid: a fresh snapshot of its subscription. -/
structure KalshiOrderbookRecovery where
  sid : ℤ
  marketTicker : String
  deriving DecidableEq

structure KalshiOrderbookState where
  expectedSid : ℤ
  marketTicker : String
  marketId : String
  current : Option KalshiOrderbookView := none
  recovery : Option KalshiOrderbookRecovery := none
  valid : Bool := false
  deriving DecidableEq

/-- The text of a `KalshiWSContinuityError`. -/
abbrev ContinuityError := String

namespace KalshiOrderbookState

def view (state : KalshiOrderbookState) : Option KalshiOrderbookView := if state.valid then state.current else none

def invalidate (state : KalshiOrderbookState) : KalshiOrderbookState :=
  { state with
    valid := false
    recovery := match state.current with
      | some current => some ⟨current.sid, current.marketTicker⟩
      | none => state.recovery }

def Matches (state : KalshiOrderbookState) (snapshot : KalshiOrderbookSnapshot) : Prop :=
  snapshot.sid = state.expectedSid ∧ snapshot.marketTicker = state.marketTicker ∧
    snapshot.marketId = state.marketId

instance (state : KalshiOrderbookState) (snapshot : KalshiOrderbookSnapshot) :
    Decidable (state.Matches snapshot) := by
  unfold Matches
  infer_instance

def viewOf (snapshot : KalshiOrderbookSnapshot) : KalshiOrderbookView :=
  ⟨snapshot.sid, snapshot.seq, snapshot.marketTicker, snapshot.marketId, snapshot.yesLevels, snapshot.noLevels⟩

/-- The state after a snapshot and the view returned, or the text of the error raised. -/
def applySnapshot (state : KalshiOrderbookState) (snapshot : KalshiOrderbookSnapshot) :
    KalshiOrderbookState × Except ContinuityError KalshiOrderbookView :=
  if ¬ state.Matches snapshot then (state, .error "snapshot does not match the acknowledged subscription")
  else
    let view := viewOf snapshot
    let accepted := { state with current := some view, recovery := none, valid := true }
    match state.current with
    | none => (accepted, .ok view)
    | some current =>
      if state.valid then
        if view = current then (state, .ok current)
        else (state, .error "unsolicited snapshot cannot replace a valid orderbook")
      else if snapshot.seq ≤ current.seq then
        (state, .error "recovery snapshot must advance the orderbook sequence")
      else (accepted, .ok view)

/-- The sum of a held quantity and a delta, in the ambient decimal context. -/
def addInContext (held delta : ℤ) : ℤ := Rounding.roundSig contextPrecision (held + delta)

/-- The view after a delta that leaves the quantity of its level at `quantity`. -/
def viewAfter (current : KalshiOrderbookView) (delta : KalshiOrderbookDelta) (quantity : ℤ) (nonneg : 0 ≤ quantity) :
    KalshiOrderbookView :=
  let changed := (current.levels delta.side).withQuantity delta.price quantity delta.priced nonneg
  { current with
    seq := delta.seq
    yesLevels := if delta.side = .yes then changed else current.yesLevels
    noLevels := if delta.side = .no then changed else current.noLevels }

/-- The state after a delta and the view returned, or the text of the error raised. -/
def applyDelta (state : KalshiOrderbookState) (delta : KalshiOrderbookDelta) :
    KalshiOrderbookState × Except ContinuityError KalshiOrderbookView :=
  match state.current with
  | none => (state, .error "orderbook requires a snapshot before any delta")
  | some current =>
    if delta.sid ≠ current.sid then (state, .error "delta does not belong to the active subscription")
    else if ¬ state.valid then (state, .error "orderbook requires a fresh snapshot before more deltas")
    else if delta.marketTicker ≠ current.marketTicker ∨ delta.marketId ≠ current.marketId then
      (state.invalidate, .error "delta market identity does not match the active snapshot")
    else if delta.seq ≠ current.seq + 1 then
      (state.invalidate,
        .error s!"non-contiguous sequence: expected {current.seq + 1}, received {delta.seq}")
    else
      let quantity := addInContext ((current.levels delta.side).quantityAt delta.price) delta.delta
      if negative : quantity < 0 then
        (state.invalidate, .error "delta would make an orderbook level negative")
      else
        let view := viewAfter current delta quantity (not_lt.1 negative)
        ({ state with current := some view }, .ok view)

@[simp] theorem view_invalidate (state : KalshiOrderbookState) : state.invalidate.view = none := rfl

theorem view_eq_some_iff {state : KalshiOrderbookState} {view : KalshiOrderbookView} :
    state.view = some view ↔ state.valid = true ∧ state.current = some view := by
  unfold KalshiOrderbookState.view
  cases state.valid <;> simp

/-- A delta that belongs to the view and comes next in its sequence. -/
structure Next (current : KalshiOrderbookView) (delta : KalshiOrderbookDelta) : Prop where
  sid : delta.sid = current.sid
  marketTicker : delta.marketTicker = current.marketTicker
  marketId : delta.marketId = current.marketId
  seq : delta.seq = current.seq + 1

def quantityAfter (current : KalshiOrderbookView) (delta : KalshiOrderbookDelta) : ℤ :=
  addInContext ((current.levels delta.side).quantityAt delta.price) delta.delta

theorem applySnapshot_cases (state : KalshiOrderbookState) (snapshot : KalshiOrderbookSnapshot) :
    (state.Matches snapshot ∧ (∀ current, state.current = some current →
        state.valid = false ∧ current.seq < snapshot.seq) ∧
      state.applySnapshot snapshot = ({ state with current := some (viewOf snapshot), recovery := none, valid := true },
        .ok (viewOf snapshot))) ∨
    (state.Matches snapshot ∧ state.view = some (viewOf snapshot) ∧
      state.applySnapshot snapshot = (state, .ok (viewOf snapshot))) ∨
    ∃ text, state.applySnapshot snapshot = (state, .error text) := by
  unfold applySnapshot
  by_cases foreign : ¬ state.Matches snapshot
  · rw [if_pos foreign]
    exact Or.inr (Or.inr ⟨_, rfl⟩)
  · rw [if_neg foreign]
    have matching : state.Matches snapshot := not_not.1 foreign
    cases shown : state.current with
    | none =>
      refine Or.inl ⟨matching, fun current held => ?_, rfl⟩
      cases held
    | some current =>
      cases valid : state.valid with
      | true =>
        by_cases same : viewOf snapshot = current
        · have view : state.view = some (viewOf snapshot) := view_eq_some_iff.2 ⟨valid, by rw [shown, same]⟩
          exact Or.inr (Or.inl ⟨matching, view, by simp [same]⟩)
        · exact Or.inr (Or.inr ⟨_, by simp only [if_neg same]; rfl⟩)
      | false =>
        by_cases stale : snapshot.seq ≤ current.seq
        · exact Or.inr (Or.inr ⟨_, by simp only [if_pos stale]; rfl⟩)
        · refine Or.inl ⟨matching, fun other held => ?_, by simp [stale]⟩
          cases held
          exact ⟨rfl, not_le.1 stale⟩

theorem applyDelta_cases (state : KalshiOrderbookState) (delta : KalshiOrderbookDelta) :
    ((∀ current, state.view = some current → delta.sid ≠ current.sid) ∧
      ∃ text, state.applyDelta delta = (state, .error text)) ∨
    (∃ current, state.view = some current ∧ delta.sid = current.sid ∧
      (¬ Next current delta ∨ quantityAfter current delta < 0) ∧
      ∃ text, state.applyDelta delta = (state.invalidate, .error text)) ∨
    ∃ current, state.view = some current ∧ Next current delta ∧ ∃ nonneg : 0 ≤ quantityAfter current delta,
      state.applyDelta delta =
        ({ state with current := some (viewAfter current delta (quantityAfter current delta) nonneg) },
          .ok (viewAfter current delta (quantityAfter current delta) nonneg)) := by
  unfold applyDelta
  cases shown : state.current with
  | none =>
    refine Or.inl ⟨fun current held => ?_, _, rfl⟩
    rw [view_eq_some_iff, shown] at held
    cases held.2
  | some current =>
    simp only
    by_cases foreign : delta.sid ≠ current.sid
    · rw [if_pos foreign]
      refine Or.inl ⟨fun other held => ?_, _, rfl⟩
      rw [view_eq_some_iff, shown] at held
      cases held.2
      exact foreign
    rw [if_neg foreign]
    by_cases invalid : ¬ state.valid
    · rw [if_pos invalid]
      refine Or.inl ⟨fun other held => ?_, _, rfl⟩
      exact absurd (view_eq_some_iff.1 held).1 invalid
    rw [if_neg invalid]
    have view : state.view = some current := view_eq_some_iff.2 ⟨not_not.1 invalid, shown⟩
    by_cases identity : delta.marketTicker ≠ current.marketTicker ∨ delta.marketId ≠ current.marketId
    · rw [if_pos identity]
      refine Or.inr (Or.inl ⟨current, view, not_not.1 foreign, Or.inl fun next => ?_, _, rfl⟩)
      exact identity.elim (fun ticker => ticker next.marketTicker) (fun market => market next.marketId)
    rw [if_neg identity]
    by_cases gap : delta.seq ≠ current.seq + 1
    · rw [if_pos gap]
      exact Or.inr (Or.inl ⟨current, view, not_not.1 foreign, Or.inl fun next => gap next.seq, _, rfl⟩)
    rw [if_neg gap]
    by_cases negative : quantityAfter current delta < 0
    · exact Or.inr (Or.inl ⟨current, view, not_not.1 foreign, Or.inr negative, _, dif_pos negative⟩)
    · rw [not_or, not_not, not_not] at identity
      exact Or.inr (Or.inr ⟨current, view, ⟨not_not.1 foreign, identity.1, identity.2, not_not.1 gap⟩,
        not_lt.1 negative, dif_neg negative⟩)

theorem addInContext_of_not_pos (ladder : Ladder) (delta : KalshiOrderbookDelta)
    (nonpos : ladder.quantityAt delta.price + delta.delta ≤ 0) :
    Rounding.Representable contextPrecision (ladder.quantityAt delta.price + delta.delta) := by
  apply Rounding.representable_of_small
  have held := ladder.quantityAt_nonneg delta.price
  have bounded := delta.bounded
  simp only [quantityBound, abs_lt, contextPrecision] at *
  omega

end KalshiOrderbookState

end Callisto.Ws
