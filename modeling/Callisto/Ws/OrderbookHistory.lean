import Callisto.Ws.Orderbook
import Callisto.Library.Runs

/-! What the orderbook shows over a run of snapshots and deltas, against the exact sums of the deltas
accepted after the latest snapshot. -/

namespace Callisto.Ws

open Callisto.Library Callisto.Library.Runs

inductive OrderbookCall where
  | snapshot (snapshot : KalshiOrderbookSnapshot)
  | delta (delta : KalshiOrderbookDelta)

def KalshiOrderbookState.apply (state : KalshiOrderbookState) :
    OrderbookCall → KalshiOrderbookState × Except ContinuityError KalshiOrderbookView
  | .snapshot snapshot => state.applySnapshot snapshot
  | .delta delta => state.applyDelta delta

structure Accepted where
  snapshot : KalshiOrderbookSnapshot
  deltas : List KalshiOrderbookDelta

/-- The unrounded quantity of a level: that of the snapshot and the sum of its deltas. -/
def Accepted.exactQuantity (accepted : Accepted) (side : MarketSide) (price : ℤ) : ℤ :=
  accepted.deltas.foldl
    (fun held delta => if delta.side = side ∧ delta.price = price then held + delta.delta else held)
    ((accepted.snapshot.levels side).quantityAt price)

/-- The view is the exact contiguous continuation of the snapshot by the deltas. -/
structure Continues (view : KalshiOrderbookView) (accepted : Accepted) : Prop where
  sid : view.sid = accepted.snapshot.sid
  marketTicker : view.marketTicker = accepted.snapshot.marketTicker
  marketId : view.marketId = accepted.snapshot.marketId
  seq : view.seq = accepted.snapshot.seq + accepted.deltas.length
  contiguous : accepted.deltas.map KalshiOrderbookDelta.seq =
    (List.range accepted.deltas.length).map fun index => accepted.snapshot.seq + 1 + index
  exact : ∀ side price, (view.levels side).quantityAt price = accepted.exactQuantity side price
  ascending : ∀ side, (view.levels side).levels.Pairwise fun first second => first.1 < second.1
  bounded : ∀ side, ∀ level ∈ (view.levels side).levels, 0 ≤ level.1 ∧ level.1 ≤ priceUnits ∧ 0 < level.2

theorem continues_viewOf (snapshot : KalshiOrderbookSnapshot) :
    Continues (KalshiOrderbookState.viewOf snapshot) ⟨snapshot, []⟩ where
  sid := rfl
  marketTicker := rfl
  marketId := rfl
  seq := by simp [KalshiOrderbookState.viewOf]
  contiguous := rfl
  exact side price := by cases side <;> rfl
  ascending side := Ladder.ascending _
  bounded side level member := ⟨(Ladder.priced _ level member).1, (Ladder.priced _ level member).2,
    Ladder.sized _ level member⟩

theorem quantityAt_viewAfter (current : KalshiOrderbookView) (delta : KalshiOrderbookDelta) (quantity : ℤ)
    (nonneg : 0 ≤ quantity) (side : MarketSide) (price : ℤ) :
    ((KalshiOrderbookState.viewAfter current delta quantity nonneg).levels side).quantityAt price =
      if delta.side = side ∧ delta.price = price then quantity else (current.levels side).quantityAt price := by
  cases side with
  | yes =>
    by_cases same : delta.side = .yes
    · simp [KalshiOrderbookState.viewAfter, KalshiOrderbookView.levels, same, Ladder.quantityAt_withQuantity]
    · simp [KalshiOrderbookState.viewAfter, KalshiOrderbookView.levels, same]
  | no =>
    by_cases same : delta.side = .no
    · simp [KalshiOrderbookState.viewAfter, KalshiOrderbookView.levels, same, Ladder.quantityAt_withQuantity]
    · simp [KalshiOrderbookState.viewAfter, KalshiOrderbookView.levels, same]

theorem Accepted.exactQuantity_append (accepted : Accepted) (delta : KalshiOrderbookDelta) (side : MarketSide)
    (price : ℤ) :
    Accepted.exactQuantity ⟨accepted.snapshot, accepted.deltas ++ [delta]⟩ side price =
      if delta.side = side ∧ delta.price = price then accepted.exactQuantity side price + delta.delta
      else accepted.exactQuantity side price := by
  simp [exactQuantity, List.foldl_append]

/-- A delta of the next sequence number continues the view exactly when its sum is not rounded. -/
theorem continues_viewAfter_iff {current : KalshiOrderbookView} {accepted : Accepted}
    {delta : KalshiOrderbookDelta} {quantity : ℤ} (nonneg : 0 ≤ quantity) (continues : Continues current accepted)
    (next : delta.seq = current.seq + 1) :
    Continues (KalshiOrderbookState.viewAfter current delta quantity nonneg)
        ⟨accepted.snapshot, accepted.deltas ++ [delta]⟩ ↔
      quantity = (current.levels delta.side).quantityAt delta.price + delta.delta := by
  constructor
  · intro after
    have level := after.exact delta.side delta.price
    rw [quantityAt_viewAfter, Accepted.exactQuantity_append, if_pos ⟨rfl, rfl⟩, if_pos ⟨rfl, rfl⟩] at level
    rw [level, continues.exact]
  · intro sum
    constructor
    · exact continues.sid
    · exact continues.marketTicker
    · exact continues.marketId
    · have before := continues.seq
      simp only [KalshiOrderbookState.viewAfter, List.length_append, List.length_singleton]
      push_cast
      omega
    · have last : delta.seq = accepted.snapshot.seq + 1 + accepted.deltas.length := by
        have before := continues.seq
        omega
      simp [List.range_succ, continues.contiguous, last]
    · intro side price
      rw [quantityAt_viewAfter, Accepted.exactQuantity_append]
      split_ifs with level
      · rw [sum, ← continues.exact, level.1, level.2]
      · exact continues.exact side price
    · intro side
      exact Ladder.ascending _
    · intro side level member
      exact ⟨(Ladder.priced _ level member).1, (Ladder.priced _ level member).2, Ladder.sized _ level member⟩

/-- A state with the latest accepted snapshot and the deltas accepted after it. -/
structure Watched where
  state : KalshiOrderbookState
  accepted : Option Accepted

namespace Watched

variable {watched : Watched} {current : KalshiOrderbookView}

def fresh (expectedSid : ℤ) (marketTicker marketId : String) : Watched :=
  ⟨{ expectedSid := expectedSid, marketTicker := marketTicker, marketId := marketId }, none⟩

/-- What a call that returns adds to the history; a call that raises adds nothing. -/
def record (accepted : Option Accepted) (call : OrderbookCall)
    (result : Except ContinuityError KalshiOrderbookView) : Option Accepted :=
  match call, result with
  | .snapshot snapshot, .ok _ => some ⟨snapshot, []⟩
  | .delta delta, .ok _ => accepted.map fun before => ⟨before.snapshot, before.deltas ++ [delta]⟩
  | _, .error _ => accepted

def step (watched : Watched) (call : OrderbookCall) : Watched :=
  ⟨(watched.state.apply call).1, record watched.accepted call (watched.state.apply call).2⟩

def Shown (watched : Watched) : Prop :=
  ∀ view, watched.state.view = some view → ∃ accepted, watched.accepted = some accepted ∧ Continues view accepted

/-- The sum that a contiguous delta of the shown market makes has at most 28 significant digits. -/
def ExactSum (watched : Watched) : OrderbookCall → Prop
  | .snapshot _ => True
  | .delta delta => ∀ current, watched.state.view = some current → delta.sid = current.sid →
      delta.marketTicker = current.marketTicker → delta.marketId = current.marketId →
      delta.seq = current.seq + 1 →
      Rounding.Representable contextPrecision ((current.levels delta.side).quantityAt delta.price + delta.delta)

instance (watched : Watched) (call : OrderbookCall) : Decidable (watched.ExactSum call) :=
  match call with
  | .snapshot _ => isTrue trivial
  | .delta delta =>
    decidable_of_iff (∀ current ∈ watched.state.view, delta.sid = current.sid →
        delta.marketTicker = current.marketTicker → delta.marketId = current.marketId →
        delta.seq = current.seq + 1 →
        Rounding.Representable contextPrecision ((current.levels delta.side).quantityAt delta.price + delta.delta))
      Iff.rfl

theorem shown_fresh (expectedSid : ℤ) (marketTicker marketId : String) :
    (fresh expectedSid marketTicker marketId).Shown := by
  intro view shown
  cases (KalshiOrderbookState.view_eq_some_iff.1 shown).1

theorem shown_step_iff (call : OrderbookCall) (shown : watched.Shown) :
    (watched.step call).Shown ↔ watched.ExactSum call := by
  cases call with
  | snapshot snapshot =>
    refine ⟨fun _ => trivial, fun _ view visible => ?_⟩
    simp only [step, KalshiOrderbookState.apply] at visible ⊢
    rcases watched.state.applySnapshot_cases snapshot with
      ⟨-, -, result⟩ | ⟨-, same, result⟩ | ⟨text, result⟩
    · rw [result] at visible ⊢
      cases (KalshiOrderbookState.view_eq_some_iff.1 visible).2
      exact ⟨_, rfl, continues_viewOf snapshot⟩
    · rw [result] at visible ⊢
      rw [same] at visible
      cases visible
      exact ⟨_, rfl, continues_viewOf snapshot⟩
    · rw [result] at visible ⊢
      exact shown view visible
  | delta delta =>
    simp only [Shown, step, KalshiOrderbookState.apply, ExactSum]
    rcases watched.state.applyDelta_cases delta with
      ⟨foreign, text, result⟩ | ⟨current, visible, sid, breaks, text, result⟩ | ⟨current, visible, next, nonneg, result⟩
    · rw [result]
      exact ⟨fun _ current visible sid => absurd sid (foreign current visible), fun _ => shown⟩
    · rw [result]
      constructor
      · rintro - other otherVisible _ ticker market seq
        rw [visible] at otherVisible
        cases otherVisible
        rcases breaks with notNext | negative
        · exact absurd ⟨sid, ticker, market, seq⟩ notNext
        · -- a sum that rounds below zero is below zero, and small enough to be exact
          apply KalshiOrderbookState.addInContext_of_not_pos
          by_contra positive
          exact absurd (Rounding.roundSig_pos (by decide) (not_le.1 positive)) negative.not_gt
      · intro _ view hidden
        cases hidden
    · rw [result]
      have valid := (KalshiOrderbookState.view_eq_some_iff.1 visible).1
      obtain ⟨accepted, recorded, continues⟩ := shown current visible
      have exact_iff := continues_viewAfter_iff nonneg continues next.seq
      have rounding : KalshiOrderbookState.quantityAfter current delta =
            (current.levels delta.side).quantityAt delta.price + delta.delta ↔
          Rounding.Representable contextPrecision
            ((current.levels delta.side).quantityAt delta.price + delta.delta) :=
        Rounding.roundSig_eq_self_iff _ _
      rw [← exact_iff] at rounding
      constructor
      · rintro after other otherVisible - - - -
        rw [visible] at otherVisible
        cases otherVisible
        obtain ⟨later, laterRecorded, laterContinues⟩ :=
          after _ (KalshiOrderbookState.view_eq_some_iff.2 ⟨valid, rfl⟩)
        rw [recorded] at laterRecorded
        cases laterRecorded
        exact rounding.1 laterContinues
      · intro exactSum view viewVisible
        cases (KalshiOrderbookState.view_eq_some_iff.1 viewVisible).2
        refine ⟨_, by rw [recorded]; rfl, rounding.2 ?_⟩
        exact exactSum current visible next.sid next.marketTicker next.marketId next.seq

theorem view_of_error {call : OrderbookCall} {text : ContinuityError}
    (raised : (watched.state.apply call).2 = .error text) :
    (watched.step call).state.view = watched.state.view ∨ (watched.step call).state.view = none := by
  simp only [step]
  cases call with
  | snapshot snapshot =>
    simp only [KalshiOrderbookState.apply] at raised ⊢
    rcases watched.state.applySnapshot_cases snapshot with ⟨-, -, result⟩ | ⟨-, -, result⟩ | ⟨other, result⟩
    · rw [result] at raised
      cases raised
    · rw [result] at raised
      cases raised
    · exact Or.inl (by rw [result])
  | delta delta =>
    simp only [KalshiOrderbookState.apply] at raised ⊢
    rcases watched.state.applyDelta_cases delta with
      ⟨-, other, result⟩ | ⟨_, _, _, _, other, result⟩ | ⟨_, _, _, _, result⟩
    · exact Or.inl (by rw [result])
    · exact Or.inr (by rw [result, KalshiOrderbookState.view_invalidate])
    · rw [result] at raised
      cases raised

def Breaks (current : KalshiOrderbookView) (delta : KalshiOrderbookDelta) : Prop :=
  delta.sid = current.sid ∧ (delta.marketTicker ≠ current.marketTicker ∨ delta.marketId ≠ current.marketId ∨
    delta.seq ≠ current.seq + 1 ∨ (current.levels delta.side).quantityAt delta.price + delta.delta < 0)

theorem hidden_of_breaks {delta : KalshiOrderbookDelta}
    (visible : watched.state.view = some current) (breaks : Breaks current delta) :
    (watched.step (.delta delta)).state = watched.state.invalidate := by
  simp only [step, KalshiOrderbookState.apply]
  rcases watched.state.applyDelta_cases delta with
    ⟨foreign, -⟩ | ⟨_, _, _, _, text, result⟩ | ⟨other, otherVisible, next, nonneg, -⟩
  · exact absurd breaks.1 (foreign current visible)
  · rw [result]
  · rw [visible] at otherVisible
    cases otherVisible
    rcases breaks.2 with ticker | market | gap | negative
    · exact absurd next.marketTicker ticker
    · exact absurd next.marketId market
    · exact absurd next.seq gap
    · have exactSum := (Rounding.roundSig_eq_self_iff _ _).2
        (KalshiOrderbookState.addInContext_of_not_pos (current.levels delta.side) delta negative.le)
      rw [KalshiOrderbookState.quantityAfter, KalshiOrderbookState.addInContext, exactSum] at nonneg
      omega

theorem binding_step (watched : Watched) (call : OrderbookCall) (snapshot : KalshiOrderbookSnapshot) :
    (watched.step call).state.Matches snapshot ↔ watched.state.Matches snapshot := by
  simp only [step]
  cases call with
  | snapshot other =>
    simp only [KalshiOrderbookState.apply]
    rcases watched.state.applySnapshot_cases other with ⟨-, -, result⟩ | ⟨-, -, result⟩ | ⟨text, result⟩
    · rw [result]; rfl
    · rw [result]
    · rw [result]
  | delta delta =>
    simp only [KalshiOrderbookState.apply]
    rcases watched.state.applyDelta_cases delta with
      ⟨-, text, result⟩ | ⟨_, _, _, _, text, result⟩ | ⟨_, _, _, _, result⟩
    · rw [result]
    · rw [result]; rfl
    · rw [result]; rfl

/-- Without a matching snapshot of a later sequence number an invalid state stays as it is. -/
theorem hidden_step (call : OrderbookCall)
    (invalid : watched.state.valid = false) (held : watched.state.current = some current) :
    ((watched.step call).state.valid = false ∧ (watched.step call).state.current = some current) ∨
      ∃ snapshot, call = .snapshot snapshot ∧ watched.state.Matches snapshot ∧ current.seq < snapshot.seq := by
  have noView : watched.state.view = none := by simp [KalshiOrderbookState.view, invalid]
  simp only [step]
  cases call with
  | snapshot snapshot =>
    simp only [KalshiOrderbookState.apply]
    rcases watched.state.applySnapshot_cases snapshot with
      ⟨matching, later, -⟩ | ⟨-, visible, -⟩ | ⟨text, result⟩
    · exact Or.inr ⟨snapshot, rfl, matching, (later current held).2⟩
    · rw [noView] at visible
      cases visible
    · exact Or.inl (by rw [result]; exact ⟨invalid, held⟩)
  | delta delta =>
    simp only [KalshiOrderbookState.apply]
    rcases watched.state.applyDelta_cases delta with
      ⟨-, text, result⟩ | ⟨other, visible, -⟩ | ⟨other, visible, -⟩
    · exact Or.inl (by rw [result]; exact ⟨invalid, held⟩)
    · rw [noView] at visible
      cases visible
    · rw [noView] at visible
      cases visible

theorem hidden_run (calls : List OrderbookCall)
    (invalid : watched.state.valid = false) (held : watched.state.current = some current) :
    (run step watched calls).state.view = none ∨
      ∃ snapshot, .snapshot snapshot ∈ calls ∧ watched.state.Matches snapshot ∧ current.seq < snapshot.seq := by
  induction calls generalizing watched with
  | nil => exact Or.inl (by simp [KalshiOrderbookState.view, invalid])
  | cons call rest ih =>
    rcases hidden_step call invalid held with ⟨stillInvalid, stillHeld⟩ | ⟨snapshot, rfl, matching, later⟩
    · rcases ih stillInvalid stillHeld with hidden | ⟨snapshot, member, matching, later⟩
      · exact Or.inl hidden
      · exact Or.inr ⟨snapshot, List.mem_cons_of_mem _ member, (binding_step watched call snapshot).1 matching, later⟩
    · exact Or.inr ⟨snapshot, List.mem_cons_self, matching, later⟩

theorem seq_step (call : OrderbookCall)
    (held : watched.state.current = some current) :
    ∃ next, (watched.step call).state.current = some next ∧ current.seq ≤ next.seq := by
  simp only [step]
  cases call with
  | snapshot snapshot =>
    simp only [KalshiOrderbookState.apply]
    rcases watched.state.applySnapshot_cases snapshot with ⟨-, later, result⟩ | ⟨-, -, result⟩ | ⟨text, result⟩
    · exact ⟨_, by rw [result], (later current held).2.le⟩
    · exact ⟨current, by rw [result]; exact held, le_rfl⟩
    · exact ⟨current, by rw [result]; exact held, le_rfl⟩
  | delta delta =>
    simp only [KalshiOrderbookState.apply]
    rcases watched.state.applyDelta_cases delta with
      ⟨-, text, result⟩ | ⟨_, _, _, _, text, result⟩ | ⟨other, visible, next, nonneg, result⟩
    · exact ⟨current, by rw [result]; exact held, le_rfl⟩
    · exact ⟨current, by rw [result]; exact held, le_rfl⟩
    · have same : other = current := by
        have shown := (KalshiOrderbookState.view_eq_some_iff.1 visible).2
        rw [held] at shown
        exact (Option.some.inj shown).symm
      subst same
      refine ⟨_, by rw [result], ?_⟩
      have seq := next.seq
      simp only [KalshiOrderbookState.viewAfter]
      omega

theorem seq_run (calls : List OrderbookCall)
    (held : watched.state.current = some current) :
    ∃ next, (run step watched calls).state.current = some next ∧ current.seq ≤ next.seq := by
  induction calls generalizing watched current with
  | nil => exact ⟨current, held, le_rfl⟩
  | cons call rest ih =>
    obtain ⟨middle, middleHeld, before⟩ := seq_step call held
    obtain ⟨next, nextHeld, after⟩ := ih middleHeld
    exact ⟨next, nextHeld, before.trans after⟩

structure Continuity (start : Watched) (calls : List OrderbookCall) : Prop where
  shown : Always step Shown start calls
  raising : ∀ first call, first ++ [call] <+: calls → ∀ text,
    ((run step start first).state.apply call).2 = .error text →
      (run step start (first ++ [call])).state.view = (run step start first).state.view ∨
      (run step start (first ++ [call])).state.view = none
  hidden : ∀ first delta later, first ++ .delta delta :: later <+: calls → ∀ current,
    (run step start first).state.view = some current → Breaks current delta →
      (run step start (first ++ .delta delta :: later)).state.view = none ∨
      ∃ snapshot, .snapshot snapshot ∈ later ∧ start.state.Matches snapshot ∧ current.seq < snapshot.seq
  advancing : ∀ first later, first ++ later <+: calls → ∀ current,
    (run step start first).state.current = some current →
      ∃ next, (run step start (first ++ later)).state.current = some next ∧ current.seq ≤ next.seq

theorem binding_run (watched : Watched) (calls : List OrderbookCall) (snapshot : KalshiOrderbookSnapshot) :
    (run step watched calls).state.Matches snapshot ↔ watched.state.Matches snapshot := by
  induction calls generalizing watched with
  | nil => rfl
  | cons call rest ih => exact (ih (watched.step call)).trans (binding_step watched call snapshot)

/-- The orderbook keeps its continuity contract over a run exactly when no accepted delta makes a
sum of more significant digits than the decimal context keeps. -/
theorem continuity_iff_exactSum (expectedSid : ℤ) (marketTicker marketId : String) (calls : List OrderbookCall) :
    Continuity (fresh expectedSid marketTicker marketId) calls ↔
      Meets step ExactSum (fresh expectedSid marketTicker marketId) calls := by
  have exact_run : Always step Shown (fresh expectedSid marketTicker marketId) calls ↔
      Meets step ExactSum (fresh expectedSid marketTicker marketId) calls :=
    @always_iff_meets _ _ step ExactSum (fun _ => True) Shown (fun _ _ _ => trivial)
      (fun _ call _ shown => shown_step_iff call shown) _ _ trivial (shown_fresh expectedSid marketTicker marketId)
  refine ⟨fun continuity => exact_run.1 continuity.shown, fun meets => ?_⟩
  constructor
  · exact exact_run.2 meets
  · intro first call _ text raised
    rw [run_append]
    exact view_of_error raised
  · intro first delta later _ current visible breaks
    rw [run_append]
    have held := (KalshiOrderbookState.view_eq_some_iff.1 visible).2
    have broken := hidden_of_breaks visible breaks
    rcases hidden_run later (by rw [broken]; rfl) (by rw [broken]; exact held) with
      hidden | ⟨snapshot, member, matching, after⟩
    · exact Or.inl hidden
    · refine Or.inr ⟨snapshot, member, ?_, after⟩
      exact (binding_run _ first snapshot).1 ((binding_step _ (.delta delta) snapshot).1 matching)
  · intro first later _ current held
    rw [run_append]
    exact seq_run later held

/-- One level at half a dollar, of the largest quantity that the parser lets through. -/
def fullLadder : Ladder where
  levels := [(500000, 9999999999999999999999999999)]
  ascending := by decide
  priced := by decide
  sized := by decide

def fullSnapshot : KalshiOrderbookSnapshot where
  sid := 7
  seq := 1
  marketTicker := "FED-23DEC-T3.00"
  marketId := "9b0f6b43-5b68-4f9f-9f02-9a2d1b8ac1a1"
  yesLevels := fullLadder
  noLevels := .empty

def smallDelta : KalshiOrderbookDelta where
  sid := 7
  seq := 2
  marketTicker := "FED-23DEC-T3.00"
  marketId := "9b0f6b43-5b68-4f9f-9f02-9a2d1b8ac1a1"
  price := 500000
  delta := 2
  side := .yes
  clientOrderId := none
  subaccount := none
  timestampMs := none
  priced := by decide
  bounded := by decide

/-- The level is shown at `10 ^ 28` hundredths where the exact sum is one more. -/
theorem not_continuity_full_level :
    ¬ Continuity (fresh 7 "FED-23DEC-T3.00" "9b0f6b43-5b68-4f9f-9f02-9a2d1b8ac1a1")
      [.snapshot fullSnapshot, .delta smallDelta] := by
  intro continuity
  have shown := continuity.shown _ (List.prefix_refl _)
  obtain ⟨view, visible, level⟩ : ∃ view, (run step (fresh 7 "FED-23DEC-T3.00"
        "9b0f6b43-5b68-4f9f-9f02-9a2d1b8ac1a1") [.snapshot fullSnapshot, .delta smallDelta]).state.view =
      some view ∧ (view.levels .yes).quantityAt 500000 = 10 ^ 28 :=
    Option.map_eq_some_iff.1 (by decide +kernel :
      (run step (fresh 7 "FED-23DEC-T3.00" "9b0f6b43-5b68-4f9f-9f02-9a2d1b8ac1a1")
        [.snapshot fullSnapshot, .delta smallDelta]).state.view.map
          (fun view => (view.levels .yes).quantityAt 500000) = some (10 ^ 28))
  obtain ⟨accepted, recorded, continues⟩ := shown view visible
  cases recorded
  have exactLevel := continues.exact .yes 500000
  rw [level] at exactLevel
  exact absurd exactLevel (by decide +kernel)

end Watched

end Callisto.Ws
