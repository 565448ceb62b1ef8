import Callisto.Optimization.ParallelExecutor

/-! What the hedge after a partial execution covers. -/

namespace Callisto.Optimization

def Placed.read (placed : Placed) : ℚ := if placed.reply.counts then placed.result.fillSize.getD 0 else 0

/-- The filled size that a reply states; an attribute of zero states nothing. -/
def Placed.statedSize (placed : Placed) : Option ℚ :=
  match placed.reply with
  | .object result => result.filledSize.filter fun size => size ≠ 0
  | .dict result => result.fillSize
  | _ => none

def Placed.statedPrice (placed : Placed) : Option ℚ :=
  match placed.reply with
  | .object result => result.averageFillPrice.filter fun price => price ≠ 0
  | .dict result => result.fillPrice
  | _ => none

/-- The leg is valid, a call that raises fills nothing, and the numbers of the reply, true or not, are sizes and prices. -/
structure Placed.InRange (placed : Placed) : Prop where
  valid : validateLeg placed.leg = none
  filled_nonneg : 0 ≤ placed.filledSize
  raised : ∀ message, placed.reply = .raised message → placed.filledSize = 0
  sizes : ∀ size, placed.statedSize = some size → 0 ≤ size
  prices : ∀ price, placed.statedPrice = some price → 0 ≤ price ∧ price ≤ 1

/-- A reply that counts states what is filled, or nothing where all of the leg is; one that does not count hides no fill. -/
def Placed.SizeTold (placed : Placed) : Prop :=
  if placed.reply.counts then
    placed.statedSize = some placed.filledSize ∨ placed.statedSize = none ∧ placed.filledSize = placed.leg.quantity
  else placed.filledSize = 0

/-- By how much a reply overstates the cost of what is filled: a price that is not stated is the leg's, and a stated price of zero makes
the leg cost its size. -/
def Placed.overstated (placed : Placed) : ℚ :=
  match placed.statedPrice with
  | none => (placed.leg.price - placed.filledPrice) * placed.filledSize
  | some price =>
    if price = 0 then placed.leg.sizeUsd - placed.filledPrice * placed.filledSize
    else (price - placed.filledPrice) * placed.filledSize

def placedOn (legs : List ExecutionLeg) (tokenId : String) (side : Side) : ℚ :=
  ((legs.filter fun leg => leg.tokenId = tokenId ∧ leg.side = side).map ExecutionLeg.quantity).sum

def filledOn (round : List Placed) (tokenId : String) (side : Side) : ℚ :=
  ((round.filter fun placed => placed.leg.tokenId = tokenId ∧ placed.leg.side = side).map Placed.filledSize).sum

/-- What the hedge should come to: per token as much on the other side as was filled, for no leg more than was
filled of it, nothing for a leg that was not filled, and the cost of the real fills. -/
structure Covers (round : List Placed) (outcome : ParallelExecutionResult × List ExecutionLeg) : Prop where
  opposite : ∀ tokenId side, placedOn outcome.2 tokenId side.opposite = filledOn round tokenId side
  legwise : outcome.2 ≠ [] → ∀ placed ∈ round, placed.reply.counts = true →
    0 < placed.filledSize ∧ (hedgeLeg placed.result).quantity ≤ placed.filledSize
  cost : outcome.1.totalCost = (round.map fun placed => placed.filledPrice * placed.filledSize).sum

def Mixed (round : List Placed) : Prop :=
  (∃ placed ∈ round, placed.reply.counts = true) ∧ ∃ placed ∈ round, placed.reply.counts = false

def counted (round : List Placed) : List Placed := round.filter fun placed => placed.reply.counts

/-- Every reply tells its size, and either each leg that counts is really filled and the prices overstate nothing in all, or none is
filled and none is priced at zero. -/
def Readable (round : List Placed) : Prop :=
  (∀ placed ∈ round, placed.SizeTold) ∧
    ((∀ placed ∈ round, placed.reply.counts = true → 0 < placed.filledSize) ∧ ((counted round).map Placed.overstated).sum = 0 ∨
      ∀ placed ∈ round, placed.filledSize = 0 ∧ (placed.reply.counts = true → placed.statedPrice ≠ some 0))

theorem Placed.overstated_of_true {placed : Placed} (positive : 0 < placed.filledPrice)
    (stated : placed.statedPrice.getD placed.leg.price = placed.filledPrice) : placed.overstated = 0 := by
  unfold Placed.overstated
  cases price : placed.statedPrice with
  | none =>
    rw [price, Option.getD_none] at stated
    simp [stated]
  | some price =>
    rw [price, Option.getD_some] at stated
    simp [stated, positive.ne']

theorem eq_of_sum_eq {α : Type*} {entries : List α} {f g : α → ℚ} (le : ∀ entry ∈ entries, f entry ≤ g entry)
    (same : (entries.map f).sum = (entries.map g).sum) : ∀ entry ∈ entries, f entry = g entry := by
  induction entries with
  | nil => simp
  | cons first rest ih =>
    have head := le first List.mem_cons_self
    have tail : ∀ entry ∈ rest, f entry ≤ g entry := fun entry member => le entry (List.mem_cons_of_mem _ member)
    have rests : (rest.map f).sum ≤ (rest.map g).sum := List.sum_le_sum tail
    simp only [List.map_cons, List.sum_cons] at same
    intro entry member
    obtain here | later := List.mem_cons.1 member
    · rw [here]
      linarith
    · exact ih tail (by linarith) entry later

section
variable {placed : Placed}

theorem result_success (placed : Placed) : placed.result.success = placed.reply.counts := by
  unfold Placed.result executeSingleLeg
  cases placed.reply <;> rfl

theorem result_leg (placed : Placed) : placed.result.leg = placed.leg := by
  unfold Placed.result executeSingleLeg
  cases placed.reply <;> rfl

theorem orNumber_eq (value : Option ℚ) (default : ℚ) :
    orNumber value default = (value.filter fun number => number ≠ 0).getD default := by
  unfold orNumber
  cases value with
  | none => rfl
  | some number => by_cases zero : number = 0 <;> simp [Option.filter, zero]

theorem reading (counts : placed.reply.counts = true) :
    placed.result.fillPrice = some (placed.statedPrice.getD placed.leg.price) ∧
      placed.result.fillSize = some (placed.statedSize.getD placed.leg.quantity) := by
  unfold Placed.result executeSingleLeg Placed.statedPrice Placed.statedSize ExecutionLeg.quantity
  cases kind : placed.reply with
  | raised message =>
    rw [kind] at counts
    exact absurd counts (by simp [Reply.counts])
  | object result => exact ⟨congrArg some (orNumber_eq _ _), congrArg some (orNumber_eq _ _)⟩
  | dict result => exact ⟨rfl, rfl⟩
  | other => exact ⟨rfl, rfl⟩

theorem read_of_counts (counts : placed.reply.counts = true) : placed.read = placed.statedSize.getD placed.leg.quantity := by
  rw [Placed.read, if_pos counts, (reading counts).2, Option.getD_some]

theorem read_eq_iff (placed : Placed) : placed.read = placed.filledSize ↔ placed.SizeTold := by
  unfold Placed.SizeTold
  by_cases counts : placed.reply.counts = true
  · rw [if_pos counts, read_of_counts counts]
    cases stated : placed.statedSize with
    | none => simp [eq_comm]
    | some size => simp
  · rw [if_neg counts, Placed.read, if_neg counts, eq_comm]

namespace Placed.InRange

theorem leg_price (inRange : placed.InRange) : 0 < placed.leg.price ∧ placed.leg.price ≤ 1 := by
  have valid := inRange.valid
  unfold validateLeg at valid
  grind

theorem leg_size (inRange : placed.InRange) : 0 < placed.leg.sizeUsd := by
  have valid := inRange.valid
  unfold validateLeg at valid
  grind

theorem read_price (inRange : placed.InRange) : 0 ≤ placed.statedPrice.getD placed.leg.price ∧ placed.statedPrice.getD placed.leg.price ≤ 1 := by
  cases stated : placed.statedPrice with
  | none => exact ⟨inRange.leg_price.1.le, inRange.leg_price.2⟩
  | some price => exact inRange.prices price stated

theorem read_size (inRange : placed.InRange) : 0 ≤ placed.statedSize.getD placed.leg.quantity := by
  cases stated : placed.statedSize with
  | none => exact (div_pos inRange.leg_size inRange.leg_price.1).le
  | some size => exact inRange.sizes size stated

theorem priced_zero_iff (inRange : placed.InRange) : placed.statedPrice.getD placed.leg.price = 0 ↔ placed.statedPrice = some 0 := by
  cases placed.statedPrice with
  | none => simp [inRange.leg_price.1.ne']
  | some price => simp

theorem hedge_price (inRange : placed.InRange) : 0 < orNumber (some (placed.statedPrice.getD placed.leg.price)) placed.leg.price ∧
    orNumber (some (placed.statedPrice.getD placed.leg.price)) placed.leg.price ≤ 1 := by
  obtain ⟨nonneg, le⟩ := inRange.read_price
  obtain ⟨positive, bounded⟩ := inRange.leg_price
  unfold orNumber
  by_cases zero : placed.statedPrice.getD placed.leg.price = 0
  · simp only [zero, if_true]
    exact ⟨positive, bounded⟩
  · simp only [if_neg zero]
    exact ⟨lt_of_le_of_ne nonneg (Ne.symm zero), le⟩

theorem hedge_quantity (inRange : placed.InRange) (counts : placed.reply.counts = true) : (hedgeLeg placed.result).quantity = placed.read := by
  have nonzero := inRange.hedge_price.1.ne'
  rw [read_of_counts counts]
  simp only [hedgeLeg, ExecutionLeg.quantity, (reading counts).1, (reading counts).2, Option.getD_some, result_leg]
  exact mul_div_cancel_right₀ _ nonzero

theorem hedge_valid_iff (inRange : placed.InRange) (counts : placed.reply.counts = true) :
    validateLeg (hedgeLeg placed.result) = none ↔ 0 < placed.read := by
  have token : placed.leg.tokenId ≠ "" := by
    have valid := inRange.valid
    unfold validateLeg at valid
    grind
  obtain ⟨positive, le⟩ := inRange.hedge_price
  rw [read_of_counts counts, ← mul_pos_iff_of_pos_right positive]
  simp only [validateLeg, hedgeLeg, (reading counts).1, (reading counts).2, Option.getD_some, result_leg, if_neg token,
    if_neg (not_le.2 positive), if_neg (not_lt.2 le)]
  split
  · next none => exact iff_of_false nofun (not_lt.2 none)
  · next some_ => exact iff_of_true rfl (not_le.1 some_)

theorem cost_eq (inRange : placed.InRange) (counts : placed.reply.counts = true) :
    placed.result.cost = if placed.statedPrice = some 0 then placed.leg.sizeUsd else placed.statedPrice.getD placed.leg.price * placed.read := by
  rw [read_of_counts counts]
  simp only [LegResult.cost, (reading counts).1, (reading counts).2, result_leg, inRange.priced_zero_iff]

theorem cost_nonneg (inRange : placed.InRange) (counts : placed.reply.counts = true) : 0 ≤ placed.result.cost := by
  rw [inRange.cost_eq counts]
  split
  · exact inRange.leg_size.le
  · rw [read_of_counts counts]
    exact mul_nonneg inRange.read_price.1 inRange.read_size

/-- A leg costs nothing exactly where no shares were read at a price that is not zero. -/
theorem cost_eq_zero_iff (inRange : placed.InRange) (counts : placed.reply.counts = true) :
    placed.result.cost = 0 ↔ placed.read = 0 ∧ placed.statedPrice ≠ some 0 := by
  rw [inRange.cost_eq counts]
  by_cases zero : placed.statedPrice = some 0
  · simp [zero, inRange.leg_size.ne']
  · have priced : placed.statedPrice.getD placed.leg.price ≠ 0 := fun none => zero (inRange.priced_zero_iff.1 none)
    simp [zero, priced]

theorem cost_of_told (inRange : placed.InRange) (counts : placed.reply.counts = true) (told : placed.SizeTold) :
    placed.result.cost = placed.overstated + placed.filledPrice * placed.filledSize := by
  rw [inRange.cost_eq counts, (read_eq_iff placed).2 told]
  unfold Placed.overstated
  cases placed.statedPrice with
  | none => simp [sub_mul]
  | some price =>
    by_cases zero : price = 0
    · simp [zero]
    · simp [zero, sub_mul]

end Placed.InRange

end

section
variable {round : List Placed}

theorem mem_counted {placed : Placed} : placed ∈ counted round ↔ placed ∈ round ∧ placed.reply.counts = true := List.mem_filter

theorem counted_cons_of_counts {placed : Placed} (counts : placed.reply.counts = true) (rest : List Placed) :
    counted (placed :: rest) = placed :: counted rest := by
  unfold counted
  exact List.filter_cons_of_pos counts

theorem counted_cons_of_not_counts {placed : Placed} (counts : ¬ placed.reply.counts = true) (rest : List Placed) :
    counted (placed :: rest) = counted rest := by
  unfold counted
  exact List.filter_cons_of_neg counts

theorem executed_eq (round : List Placed) :
    ((round.map Placed.result).filter fun result => result.success) = (counted round).map Placed.result := by
  rw [counted, List.filter_map]
  congr 2
  funext placed
  exact result_success placed

theorem mixed_iff (round : List Placed) : Mixed round ↔ 0 < (counted round).length ∧ (counted round).length < round.length := by
  have someCounts : (∃ placed ∈ round, placed.reply.counts = true) ↔ 0 < (counted round).length := by
    rw [List.length_pos_iff_exists_mem]
    simp only [mem_counted]
  have notAll : (∃ placed ∈ round, placed.reply.counts = false) ↔ (counted round).length < round.length := by
    rw [counted, List.length_filter_lt_length_iff_exists]
    simp only [Bool.not_eq_true]
  rw [Mixed, someCounts, notAll]

/-- An execution is reported as partial exactly where some legs count and some do not. -/
theorem execute_partially_iff (valid : ∀ placed ∈ round, validateLeg placed.leg = none) :
    (execute round false).status = .partially ↔ Mixed round := by
  rw [mixed_iff]
  have shorter : (counted round).length ≤ round.length := List.length_filter_le _ _
  by_cases empty : round = []
  · simp [execute, empty, counted]
  · have invalid : ¬ ¬ ∀ placed ∈ round, validateLeg placed.leg = none := not_not.2 valid
    simp only [execute, if_neg empty, if_neg invalid, Bool.false_eq_true, if_false, executed_eq, List.length_map]
    by_cases all : (counted round).length = round.length
    · simp only [if_pos all]
      constructor
      · intro impossible
        exact absurd impossible (by decide)
      · omega
    · rw [if_neg all]
      by_cases none : (counted round).length = 0
      · simp only [if_pos none]
        constructor
        · intro impossible
          exact absurd impossible (by decide)
        · omega
      · simp only [if_neg none, true_iff]
        omega

theorem executeWithHedge_mixed (valid : ∀ placed ∈ round, validateLeg placed.leg = none) (mixed : Mixed round) :
    (executeWithHedge round false true).1.totalCost = ((counted round).map fun placed => placed.result.cost).sum ∧
      (executeWithHedge round false true).2 = submitted ((counted round).map fun placed => hedgeLeg placed.result) := by
  have bounds := (mixed_iff round).1 mixed
  have empty : round ≠ [] := by
    intro none
    rw [none] at bounds
    exact absurd bounds.2 (Nat.not_lt_zero _)
  have invalid : ¬ ¬ ∀ placed ∈ round, validateLeg placed.leg = none := not_not.2 valid
  simp only [executeWithHedge, execute, if_neg empty, if_neg invalid, Bool.false_eq_true, if_false, executed_eq, List.length_map, bounds,
    and_self, decide_true, if_true, List.map_map, Function.comp_def]

theorem read_of_not_counts {placed : Placed} (counts : ¬ placed.reply.counts = true) : placed.read = 0 := by
  rw [Placed.read, if_neg counts]

theorem placedOn_hedges (inRange : ∀ placed ∈ round, placed.InRange) (tokenId : String) (side : Side) :
    placedOn ((counted round).map fun placed => hedgeLeg placed.result) tokenId side.opposite =
      ((round.filter fun placed => placed.leg.tokenId = tokenId ∧ placed.leg.side = side).map Placed.read).sum := by
  induction round with
  | nil => rfl
  | cons placed rest ih =>
    have later := ih fun other member => inRange other (List.mem_cons_of_mem _ member)
    have first := inRange placed List.mem_cons_self
    unfold placedOn at later ⊢
    by_cases counts : placed.reply.counts = true
    · have quantity := first.hedge_quantity counts
      have same : ((hedgeLeg placed.result).tokenId = tokenId ∧ (hedgeLeg placed.result).side = side.opposite) ↔
          (placed.leg.tokenId = tokenId ∧ placed.leg.side = side) := by
        rw [hedgeLeg, result_leg, Side.opposite_inj]
      rw [counted_cons_of_counts counts, List.map_cons]
      by_cases here : placed.leg.tokenId = tokenId ∧ placed.leg.side = side
      · rw [List.filter_cons_of_pos (by simpa using same.2 here), List.filter_cons_of_pos (by simpa using here), List.map_cons, List.map_cons,
          List.sum_cons, List.sum_cons, later, quantity]
      · rw [List.filter_cons_of_neg (by simpa using fun a b => here (same.1 ⟨a, b⟩)), List.filter_cons_of_neg (by simpa using here), later]
    · rw [counted_cons_of_not_counts counts, later]
      by_cases here : placed.leg.tokenId = tokenId ∧ placed.leg.side = side
      · rw [List.filter_cons_of_pos (by simpa using here), List.map_cons, List.sum_cons, read_of_not_counts counts, zero_add]
      · rw [List.filter_cons_of_neg (by simpa using here)]

theorem hedges_valid_iff (inRange : ∀ placed ∈ round, placed.InRange) :
    (∀ leg ∈ (counted round).map fun placed => hedgeLeg placed.result, validateLeg leg = none) ↔
      ∀ placed ∈ round, placed.reply.counts = true → 0 < placed.read := by
  simp only [List.forall_mem_map, mem_counted]
  constructor
  · intro valid placed member counts
    exact ((inRange placed member).hedge_valid_iff counts).1 (valid placed ⟨member, counts⟩)
  · intro positive placed member
    exact ((inRange placed member.1).hedge_valid_iff member.2).2 (positive placed member.1 member.2)

theorem sum_counted_eq (f g : Placed → ℚ) (counts : ∀ placed ∈ round, placed.reply.counts = true → f placed = g placed)
    (others : ∀ placed ∈ round, ¬ placed.reply.counts = true → g placed = 0) : ((counted round).map f).sum = (round.map g).sum := by
  induction round with
  | nil => rfl
  | cons placed rest ih =>
    have later := ih (fun other member => counts other (List.mem_cons_of_mem _ member))
      fun other member => others other (List.mem_cons_of_mem _ member)
    by_cases here : placed.reply.counts = true
    · rw [counted_cons_of_counts here, List.map_cons, List.map_cons, List.sum_cons, List.sum_cons, later, counts placed List.mem_cons_self here]
    · rw [counted_cons_of_not_counts here, List.map_cons, List.sum_cons, later, others placed List.mem_cons_self here, zero_add]

/-- With the sizes told, the cost is right exactly where the prices overstate nothing in all. -/
theorem cost_eq_iff (inRange : ∀ placed ∈ round, placed.InRange) (told : ∀ placed ∈ round, placed.SizeTold) :
    ((counted round).map fun placed => placed.result.cost).sum = (round.map fun placed => placed.filledPrice * placed.filledSize).sum ↔
      ((counted round).map Placed.overstated).sum = 0 := by
  have real : ((counted round).map fun placed => placed.filledPrice * placed.filledSize).sum =
      (round.map fun placed => placed.filledPrice * placed.filledSize).sum := by
    refine sum_counted_eq _ _ (fun _ _ _ => rfl) fun placed member counts => ?_
    have none := told placed member
    rw [Placed.SizeTold, if_neg counts] at none
    rw [none, mul_zero]
  have costs : (counted round).map (fun placed => placed.result.cost) =
      (counted round).map fun placed => placed.overstated + placed.filledPrice * placed.filledSize := by
    refine List.map_congr_left fun placed member => ?_
    obtain ⟨among, counts⟩ := mem_counted.1 member
    exact (inRange placed among).cost_of_told counts (told placed among)
  rw [costs, List.sum_map_add, real]
  exact add_eq_right

theorem covers_of_readable (inRange : ∀ placed ∈ round, placed.InRange) (mixed : Mixed round) (readable : Readable round) :
    Covers round (executeWithHedge round false true) := by
  obtain ⟨total, hedges⟩ := executeWithHedge_mixed (fun placed member => (inRange placed member).valid) mixed
  have reads : ∀ placed ∈ round, placed.read = placed.filledSize := fun placed member =>
    (read_eq_iff placed).2 (readable.1 placed member)
  obtain ⟨filled, balanced⟩ | nothing := readable.2
  · have valid : ∀ placed ∈ round, placed.reply.counts = true → 0 < placed.read := by
      intro placed member counts
      rw [reads placed member]
      exact filled placed member counts
    have placedAll := (hedges_valid_iff inRange).2 valid
    rw [submitted, if_pos placedAll] at hedges
    constructor
    · intro tokenId side
      rw [hedges, placedOn_hedges inRange, filledOn]
      congr 1
      apply List.map_congr_left
      intro placed member
      exact reads placed (List.mem_of_mem_filter member)
    · intro _ placed member counts
      rw [(inRange placed member).hedge_quantity counts, reads placed member]
      exact ⟨filled placed member counts, le_refl _⟩
    · rw [total]
      exact (cost_eq_iff inRange readable.1).2 balanced
  · obtain ⟨⟨some_counting, among, counts⟩, -⟩ := mixed
    have refused : ¬ ∀ leg ∈ (counted round).map fun placed => hedgeLeg placed.result, validateLeg leg = none := by
      rw [hedges_valid_iff inRange]
      intro valid
      have positive := valid some_counting among counts
      rw [reads some_counting among, (nothing some_counting among).1] at positive
      exact absurd positive (lt_irrefl 0)
    rw [submitted, if_neg refused] at hedges
    constructor
    · intro tokenId side
      have zero : filledOn round tokenId side = 0 := by
        unfold filledOn
        apply List.sum_eq_zero
        intro size member
        obtain ⟨placed, inside, rfl⟩ := List.mem_map.1 member
        exact (nothing placed (List.mem_of_mem_filter inside)).1
      rw [hedges, zero]
      rfl
    · intro placedSome
      exact absurd hedges placedSome
    · rw [total]
      apply sum_counted_eq
      · intro placed member counts
        have none := nothing placed member
        rw [((inRange placed member).cost_eq_zero_iff counts).2 ⟨(reads placed member).trans none.1, none.2 counts⟩, none.1, mul_zero]
      · intro placed member _
        rw [(nothing placed member).1, mul_zero]

theorem readable_of_covers (inRange : ∀ placed ∈ round, placed.InRange) (mixed : Mixed round)
    (covers : Covers round (executeWithHedge round false true)) : Readable round := by
  obtain ⟨total, hedges⟩ := executeWithHedge_mixed (fun placed member => (inRange placed member).valid) mixed
  obtain ⟨opposite, legwise, cost⟩ := covers
  by_cases valid : ∀ placed ∈ round, placed.reply.counts = true → 0 < placed.read
  · have placedAll := (hedges_valid_iff inRange).2 valid
    rw [submitted, if_pos placedAll] at hedges
    obtain ⟨⟨some_counting, among, counting⟩, -⟩ := mixed
    have some_hedge : (executeWithHedge round false true).2 ≠ [] := by
      rw [hedges]
      intro none
      have impossible : some_counting ∈ counted round := mem_counted.2 ⟨among, counting⟩
      rw [List.map_eq_nil_iff.1 none] at impossible
      exact absurd impossible List.not_mem_nil
    have le : ∀ placed ∈ round, placed.read ≤ placed.filledSize := by
      intro placed member
      by_cases counts : placed.reply.counts = true
      · rw [← (inRange placed member).hedge_quantity counts]
        exact (legwise some_hedge placed member counts).2
      · rw [read_of_not_counts counts]
        exact (inRange placed member).filled_nonneg
    have reads : ∀ placed ∈ round, placed.read = placed.filledSize := by
      intro placed member
      have sums := opposite placed.leg.tokenId placed.leg.side
      rw [hedges, placedOn_hedges inRange, filledOn] at sums
      exact eq_of_sum_eq (fun other inside => le other (List.mem_of_mem_filter inside)) sums placed
        (List.mem_filter.2 ⟨member, by simp⟩)
    have told : ∀ placed ∈ round, placed.SizeTold := fun placed member => (read_eq_iff placed).1 (reads placed member)
    exact ⟨told, Or.inl ⟨fun placed member counts => (legwise some_hedge placed member counts).1,
      (cost_eq_iff inRange told).1 (total.symm.trans cost)⟩⟩
  · have refused : ¬ ∀ leg ∈ (counted round).map fun placed => hedgeLeg placed.result, validateLeg leg = none :=
      fun all => valid ((hedges_valid_iff inRange).1 all)
    rw [submitted, if_neg refused] at hedges
    have nothing : ∀ placed ∈ round, placed.filledSize = 0 := by
      intro placed member
      have sums := opposite placed.leg.tokenId placed.leg.side
      rw [hedges, filledOn] at sums
      have zero := @eq_of_sum_eq _ (round.filter fun other => other.leg.tokenId = placed.leg.tokenId ∧ other.leg.side = placed.leg.side)
        (fun _ => 0) Placed.filledSize (fun other inside => (inRange other (List.mem_of_mem_filter inside)).filled_nonneg)
        (by simpa [placedOn] using sums) placed (List.mem_filter.2 ⟨member, by simp⟩)
      exact zero.symm
    have costs : ∀ placed ∈ counted round, (0 : ℚ) = placed.result.cost := by
      apply eq_of_sum_eq
      · intro placed member
        exact (inRange placed (mem_counted.1 member).1).cost_nonneg (mem_counted.1 member).2
      · rw [← total, cost]
        have free : (round.map fun placed => placed.filledPrice * placed.filledSize).sum = 0 := by
          apply List.sum_eq_zero
          intro amount member
          obtain ⟨placed, inside, rfl⟩ := List.mem_map.1 member
          rw [nothing placed inside, mul_zero]
        rw [free]
        simp
    have free : ∀ placed ∈ round, placed.reply.counts = true → placed.read = 0 ∧ placed.statedPrice ≠ some 0 := by
      intro placed member counts
      exact ((inRange placed member).cost_eq_zero_iff counts).1 (costs placed (mem_counted.2 ⟨member, counts⟩)).symm
    constructor
    · intro placed member
      rw [← read_eq_iff, nothing placed member]
      by_cases counts : placed.reply.counts = true
      · exact (free placed member counts).1
      · exact read_of_not_counts counts
    · exact Or.inr fun placed member => ⟨nothing placed member, fun counts => (free placed member counts).2⟩

end

/-- A leg that rests unfilled beside one that was refused: the code sells the ten shares that it never bought. -/
def restingRound : List Placed := [
  ⟨⟨"yes", .buy, 1 / 2, 5, none⟩, .object { status := "open", filledSize := some 0 }, 0, 1 / 2⟩,
  ⟨⟨"no", .buy, 2 / 5, 4, none⟩, .raised "rejected", 0, 2 / 5⟩]

theorem restingRound_inRange : ∀ placed ∈ restingRound, placed.InRange := by
  intro placed member
  obtain rfl | rfl : placed = _ ∨ placed = _ := by simpa [restingRound] using member
  · exact ⟨by decide +kernel, le_rfl, nofun, by simp [Placed.statedSize], by simp [Placed.statedPrice]⟩
  · exact ⟨by decide +kernel, le_rfl, fun _ _ => rfl, nofun, nofun⟩

/-- A part of a leg is filled at a better price, all of another at its own price without a word on it, and a third is refused. -/
def toldRound : List Placed := [
  ⟨⟨"yes", .buy, 1 / 2, 5, none⟩, .object { status := "open", filledSize := some 4, averageFillPrice := some (1 / 4) }, 4, 1 / 4⟩,
  ⟨⟨"no", .sell, 2 / 5, 4, none⟩, .dict { status := some "filled" }, 10, 2 / 5⟩,
  ⟨⟨"other", .buy, 2 / 5, 4, none⟩, .raised "rejected", 0, 2 / 5⟩]

theorem toldRound_inRange : ∀ placed ∈ toldRound, placed.InRange := by
  intro placed member
  obtain rfl | rfl | rfl : placed = _ ∨ placed = _ ∨ placed = _ := by simpa [toldRound] using member
  · refine ⟨by decide +kernel, by norm_num, nofun, fun size stated => ?_, fun price stated => ?_⟩
    · simp only [Placed.statedSize, Option.filter_eq_some_iff, Option.some_inj] at stated
      rw [← stated.1]
      norm_num
    · simp only [Placed.statedPrice, Option.filter_eq_some_iff, Option.some_inj] at stated
      rw [← stated.1]
      norm_num
  · exact ⟨by decide +kernel, by norm_num, nofun, nofun, nofun⟩
  · exact ⟨by decide +kernel, le_rfl, fun _ _ => rfl, nofun, nofun⟩

end Callisto.Optimization
