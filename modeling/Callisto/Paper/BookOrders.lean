import Callisto.Paper.BookEvidence

/-! The simulated fill against a book as it was read. The amounts of the book and of the order are converted to units first; the amounts of
the result are left in units. -/

namespace Callisto.Paper.Spelled

open Callisto.Library

def validateLevel (ranges : List PaperPriceRange) (level : PaperBookLevel) : Except ProtocolError DepthLevel := do
  let price ← toScaledInt level.price priceScale "book price"
  let quantity ← toScaledInt level.quantity quantityScale "book quantity"
  readLevel ranges ⟨price, quantity⟩

def writeAll : List ℤ → Except ProtocolError Unit
  | [] => .ok ()
  | units :: rest => if Writable units then writeAll rest else .error digitLimitError

theorem take_le {requested : ℤ} {accepts : ℤ → Prop} (walk : Walk requested accepts) (level : DepthLevel) :
    min walk.remaining level.quantity ≤ walk.remaining := min_le_left _ _

/-- The loop over the levels, best first. The amounts of each fill are written as it is made. -/
def walkSpelled {requested : ℤ} {accepts : ℤ → Prop} [DecidablePred accepts] (executionPrice : Price → Except ProtocolError Price)
    (side : Outcome) : List DepthLevel → Walk requested accepts → Except ProtocolError (Walk requested accepts)
  | [], walk => .ok walk
  | level :: rest, walk => do
    let price ← executionPrice level.price
    if accepted : accepts price.units then
      if positive : 0 < min walk.remaining level.quantity then do
        let units := min walk.remaining level.quantity
        writeAll [units, price.units, price.units * units, level.price.units]
        let next := walk.take level.price price side units accepted positive (take_le walk level)
        if next.remaining = 0 then .ok next else walkSpelled executionPrice side rest next
      else walkSpelled executionPrice side rest walk
    else walkSpelled executionPrice side rest walk

def simulateSpelled (limitField : String) (reasons : FillReasons) (formulaVersion : String) (accepts : ℤ → ℤ → Prop)
    [∀ limit, DecidablePred (accepts limit)] (executionPrice : Price → Except ProtocolError Price) (side : Outcome)
    (levels : List PaperBookLevel) (quantity limit : Decimal) (ranges : List PaperPriceRange) : Except ProtocolError PaperFillResult := do
  let quantityUnits ← toScaledInt quantity quantityScale "quantity"
  if positive : 0 < quantityUnits then do
    let limitUnits ← toScaledInt limit priceScale limitField
    if limitUnits ≤ 0 ∨ priceUnits ≤ limitUnits then .error s!"{limitField} must be greater than 0 and less than 1"
    else if ¬ priceIsOnTick limitUnits ranges then .error s!"{limitField} is not valid for the market price ranges"
    else do
      let validated ← levels.mapM (validateLevel ranges)
      let walk ← walkSpelled executionPrice side (bestFirst validated) (Walk.start positive : Walk quantityUnits (accepts limitUnits))
      writeAll [quantityUnits, quantityUnits - walk.remaining, walk.remaining, walk.notional]
      .ok (walk.result validated reasons formulaVersion)
  else .error "quantity must be greater than 0"

def simulateBuyIoc (book : PaperBook) (outcome : Outcome) (quantity limitPrice : Decimal) (ranges : List PaperPriceRange) :
    Except ProtocolError PaperFillResult :=
  simulateSpelled "limit_price" buyReasons "kalshi-complementary-depth-ioc-v1" (fun limit price => price ≤ limit) (complementPrice ranges)
    outcome.other (book.bids outcome.other) quantity limitPrice ranges

def simulateSellIoc (book : PaperBook) (outcome : Outcome) (quantity minimumPrice : Decimal) (ranges : List PaperPriceRange) :
    Except ProtocolError PaperFillResult :=
  simulateSpelled "minimum_price" sellReasons "kalshi-owned-depth-sell-ioc-v1" (fun minimum price => minimum ≤ price) .ok outcome
    (book.bids outcome) quantity minimumPrice ranges

theorem validateLevel_sound {ranges : List PaperPriceRange} {level : PaperBookLevel} (sound : level.Sound) :
    validateLevel ranges level = readLevel ranges level.units := by
  unfold validateLevel
  rw [sound.convert_price, sound.convert_quantity]
  rfl

theorem validate_sound {ranges : List PaperPriceRange} {levels : List PaperBookLevel} (sound : ∀ level ∈ levels, level.Sound) :
    levels.mapM (validateLevel ranges) = (levels.map PaperBookLevel.units).mapM (readLevel ranges) := by
  induction levels with
  | nil => rfl
  | cons level rest ih =>
    rw [List.mapM_cons, List.map_cons, List.mapM_cons, validateLevel_sound (sound level List.mem_cons_self),
      ih fun other member => sound other (List.mem_cons_of_mem _ member)]

theorem walkSpelled_ok {requested : ℤ} {accepts : ℤ → Prop} [DecidablePred accepts] {executionPrice : Price → Except ProtocolError Price}
    {side : Outcome} {levels : List DepthLevel} {walk done : Walk requested accepts}
    (walked : walkSpelled executionPrice side levels walk = .ok done) : walkDepth executionPrice side levels walk = .ok done := by
  induction levels generalizing walk with
  | nil => exact walked
  | cons level rest ih =>
    unfold walkSpelled at walked
    unfold walkDepth
    obtain ⟨price, priced, walked⟩ := bind_ok.1 walked
    refine bind_ok.2 ⟨price, priced, ?_⟩
    by_cases accepted : accepts price.units
    · rw [dif_pos accepted] at walked ⊢
      by_cases positive : 0 < min walk.remaining level.quantity
      · rw [dif_pos positive] at walked ⊢
        obtain ⟨-, -, walked⟩ := bind_ok.1 walked
        dsimp only at walked ⊢
        split at walked
        · rename_i finished
          rw [if_pos finished]
          exact walked
        · rename_i unfinished
          rw [if_neg unfinished]
          exact ih walked
      · rw [dif_neg positive] at walked ⊢
        exact ih walked
    · rw [dif_neg accepted] at walked ⊢
      exact ih walked

theorem simulateSpelled_ok {limitField : String} {reasons : FillReasons} {formulaVersion : String} {accepts : ℤ → ℤ → Prop}
    [∀ limit, DecidablePred (accepts limit)] {executionPrice : Price → Except ProtocolError Price} {side : Outcome}
    {levels : List PaperBookLevel} {quantity limit : Decimal} {ranges : List PaperPriceRange} {result : PaperFillResult}
    (sound : ∀ level ∈ levels, level.Sound)
    (found : simulateSpelled limitField reasons formulaVersion accepts executionPrice side levels quantity limit ranges = .ok result) :
    ∃ quantityUnits limitUnits, quantity.scaled quantityScale = some quantityUnits ∧ limit.scaled priceScale = some limitUnits ∧
      simulateIoc limitField reasons formulaVersion accepts executionPrice side (levels.map PaperBookLevel.units) quantityUnits limitUnits
        ranges = .ok result := by
  unfold simulateSpelled toScaledInt at found
  obtain ⟨quantityUnits, sized, found⟩ := bind_ok.1 found
  cases measured : quantity.scaled quantityScale with
  | none =>
    rw [measured] at sized
    cases sized
  | some units =>
    rw [measured] at sized
    cases sized
    split at found
    · rename_i positive
      obtain ⟨limitUnits, limited, found⟩ := bind_ok.1 found
      cases counted : limit.scaled priceScale with
      | none =>
        rw [counted] at limited
        cases limited
      | some bound =>
        rw [counted] at limited
        cases limited
        refine ⟨_, _, rfl, rfl, ?_⟩
        unfold simulateIoc
        rw [dif_pos positive]
        split at found
        · cases found
        · rename_i inside
          rw [if_neg inside]
          split at found
          · cases found
          · rename_i onTick
            rw [if_neg onTick]
            obtain ⟨validated, valid, found⟩ := bind_ok.1 found
            obtain ⟨walk, walked, found⟩ := bind_ok.1 found
            obtain ⟨-, -, found⟩ := bind_ok.1 found
            rw [validate_sound sound] at valid
            exact bind_ok.2 ⟨validated, valid, bind_ok.2 ⟨walk, walkSpelled_ok walked, found⟩⟩
    · cases found

theorem simulateSpelled_congr (limitField : String) (reasons : FillReasons) (formulaVersion : String) (accepts : ℤ → ℤ → Prop)
    [∀ limit, DecidablePred (accepts limit)] (executionPrice : Price → Except ProtocolError Price) (side : Outcome)
    {first second : List PaperBookLevel} (sound : ∀ level ∈ first, level.Sound) (also : ∀ level ∈ second, level.Sound)
    (same : first.map PaperBookLevel.units = second.map PaperBookLevel.units) (quantity limit : Decimal) (ranges : List PaperPriceRange) :
    simulateSpelled limitField reasons formulaVersion accepts executionPrice side first quantity limit ranges =
      simulateSpelled limitField reasons formulaVersion accepts executionPrice side second quantity limit ranges := by
  unfold simulateSpelled
  rw [validate_sound sound, validate_sound also, same]

end Callisto.Paper.Spelled
