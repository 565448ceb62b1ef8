import Callisto.Exits.PlanSizes

/-! The sizes of a plan add up to the target unless the last pass promotes a child: what it adds is taken from no other child. -/

namespace Callisto.Exits.Planner

variable (lower upper : String → String) (request : ExitRequest)

structure SpreadsTarget (plans : List ChildPlan) : Prop where
  total : plans ≠ [] → |(plans.map ChildPlan.size).sum - request.targetSize| ≤ tolerance
  sized : ∀ plan ∈ plans, 0 < plan.size
  worth : ∀ plan ∈ plans, request.minNotional ≤ plan.price * plan.size + tolerance
  few : (plans.length : ℤ) ≤ request.policy.maxChunks
  indexed : plans.map ChildPlan.index = List.range plans.length
  priced : ∀ plan ∈ plans, OnTick request.tickSize plan.price ∧ plan.price ≤ 99 / 100
  empty : plans = [] → request.insidePrice upper * request.targetSize < request.minNotional

/-- The child falls short of the minimum notional, and the whole target would not. -/
def Promotes (plan : ChildPlan) : Prop :=
  plan.price * plan.size + tolerance < request.minNotional ∧ request.minNotional / plan.price ≤ request.targetSize + tolerance

/-- At the child's price not even the whole target reaches the minimum notional. -/
def Forfeits (plan : ChildPlan) : Prop :=
  plan.price * plan.size + tolerance < request.minNotional ∧ request.targetSize + tolerance < request.minNotional / plan.price

instance (plan : ChildPlan) : Decidable (Promotes request plan) := inferInstanceAs (Decidable (_ ∧ _))

instance (plan : ChildPlan) : Decidable (Forfeits request plan) := inferInstanceAs (Decidable (_ ∧ _))

/-- No child of the layout is promoted; where the highest price of the tick is above 0.99, no child is kept at it. -/
structure Settles : Prop where
  unpromoted : ∀ plan ∈ request.layout lower upper, ¬ Promotes request plan
  below : 99 / 100 < highestPrice request.tickSize →
    ∀ plan ∈ request.layout lower upper, plan.price = highestPrice request.tickSize → Forfeits request plan
  single : 99 / 100 < highestPrice request.tickSize → request.insidePrice upper = highestPrice request.tickSize →
    (∀ plan ∈ request.layout lower upper, Forfeits request plan) →
      request.insidePrice upper * request.targetSize + tolerance < request.minNotional

variable {plan : ChildPlan} {plans : List ChildPlan}

inductive Settled (plan : ChildPlan) : Prop
  | stays (worth : request.minNotional ≤ plan.price * plan.size + tolerance) (kept : request.settle plan = some plan)
  | promoted (promotes : Promotes request plan) (raised : request.settle plan = some { plan with size := request.minNotional / plan.price })
  | forfeited (forfeits : Forfeits request plan) (lost : request.settle plan = none)

theorem settle_cases (priced : 0 < plan.price) (sized : 0 < plan.size) : Settled request plan := by
  have sound : ¬ (plan.price ≤ 0 ∨ plan.size ≤ 0) := not_or.2 ⟨not_le.2 priced, not_le.2 sized⟩
  have taken : request.settle plan = _ := if_neg sound
  by_cases short : plan.price * plan.size + tolerance < request.minNotional
  · rw [if_pos short] at taken
    by_cases fits : request.minNotional / plan.price ≤ request.targetSize + tolerance
    · exact Settled.promoted ⟨short, fits⟩ (taken.trans (if_pos fits))
    · exact Settled.forfeited ⟨short, not_le.1 fits⟩ (taken.trans (if_neg fits))
  · exact Settled.stays (not_lt.1 short) (taken.trans (if_neg short))

theorem Forfeits.not_promotes {request : ExitRequest} (forfeits : Forfeits request plan) : ¬ Promotes request plan := fun promotes =>
  absurd promotes.2 (not_le.2 forfeits.2)

theorem settle_eq_none_iff {request : ExitRequest} (priced : 0 < plan.price) (sized : 0 < plan.size) :
    request.settle plan = none ↔ Forfeits request plan := by
  cases settle_cases request priced sized with
  | stays worth kept => exact iff_of_false (kept ▸ nofun) fun forfeits => absurd worth (not_le.2 forfeits.1)
  | promoted promotes raised => exact iff_of_false (raised ▸ nofun) fun forfeits => forfeits.not_promotes promotes
  | forfeited forfeits lost => exact iff_of_true lost forfeits

def excess (plan : ChildPlan) : ℚ :=
  if Promotes request plan then request.minNotional / plan.price - plan.size else 0

theorem excess_of_promotes {request : ExitRequest} (priced : 0 < plan.price) (promotes : Promotes request plan) :
    tolerance / plan.price < excess request plan := by
  unfold excess
  rw [if_pos promotes, lt_sub_iff_add_lt, div_add' _ _ _ priced.ne', div_lt_div_iff_of_pos_right priced]
  linarith [promotes.1]

theorem excess_nonneg (priced : 0 < plan.price) : 0 ≤ excess request plan := by
  by_cases promotes : Promotes request plan
  · exact (div_pos tolerance_pos priced).le.trans (excess_of_promotes priced promotes).le
  · unfold excess
    rw [if_neg promotes]

theorem settle_some {request : ExitRequest} {survivor : ChildPlan} (priced : 0 < plan.price) (sized : 0 < plan.size)
    (survives : request.settle plan = some survivor) :
    survivor.price = plan.price ∧ 0 < survivor.size ∧ request.minNotional ≤ survivor.price * survivor.size + tolerance := by
  cases settle_cases request priced sized with
  | stays worth kept =>
    rw [kept] at survives
    cases survives
    exact ⟨rfl, sized, worth⟩
  | promoted promotes raised =>
    rw [raised] at survives
    cases survives
    have notional : 0 < request.minNotional := by
      have own := mul_pos priced sized
      linarith [promotes.1, tolerance_pos]
    refine ⟨rfl, div_pos notional priced, ?_⟩
    rw [mul_div_cancel₀ _ priced.ne']
    linarith [tolerance_pos]
  | forfeited forfeits lost =>
    rw [lost] at survives
    cases survives

theorem settled_sum (positive : ∀ plan ∈ plans, 0 < plan.price ∧ 0 < plan.size) :
    ((plans.filterMap request.settle).map ChildPlan.size).sum + request.forfeited plans =
      (plans.map ChildPlan.size).sum + (plans.map (excess request)).sum := by
  induction plans with
  | nil => rfl
  | cons plan rest ih =>
    have ⟨priced, sized⟩ := positive plan List.mem_cons_self
    have later := ih fun other member => positive other (List.mem_cons_of_mem _ member)
    unfold ExitRequest.forfeited at later ⊢
    rw [List.map_cons, List.map_cons, List.sum_cons, List.sum_cons]
    cases settle_cases request priced sized with
    | stays worth kept =>
      have unpromoted : ¬ Promotes request plan := fun promotes => absurd promotes.1 (not_lt.2 worth)
      rw [List.filterMap_cons_some kept, List.filter_cons_of_neg (by simp [kept]), List.map_cons, List.sum_cons, excess,
        if_neg unpromoted]
      linarith
    | promoted promotes raised =>
      rw [List.filterMap_cons_some raised, List.filter_cons_of_neg (by simp [raised]), List.map_cons, List.sum_cons, excess,
        if_pos promotes]
      linarith
    | forfeited forfeits lost =>
      rw [List.filterMap_cons_none lost, List.filter_cons_of_pos (by simp [lost]), List.map_cons, List.sum_cons, excess,
        if_neg forfeits.not_promotes]
      linarith

theorem forfeited_nonneg (sized : ∀ plan ∈ plans, 0 < plan.size) : 0 ≤ request.forfeited plans := by
  apply List.sum_nonneg
  intro size member
  have ⟨plan, inside, same⟩ := List.mem_map.1 member
  exact same ▸ (sized plan (List.mem_of_mem_filter inside)).le

theorem map_renumbered {β : Type} {field : ChildPlan → β} (kept : ∀ plan index, field { plan with index := index } = field plan)
    (plans : List ChildPlan) :
    ((plans.zipIdx.map fun entry => { entry.1 with index := entry.2 }).map field) = plans.map field := by
  calc _ = (plans.zipIdx.map Prod.fst).map field := by
        rw [List.map_map, List.map_map]
        exact List.map_congr_left fun entry _ => kept entry.1 entry.2
    _ = _ := by rw [List.zipIdx_map_fst]

theorem finish_survivors (sized : ∀ plan ∈ plans, 0 < plan.size)
    (survivors : plans.filterMap request.settle ≠ []) :
    ((request.finish upper plans).map ChildPlan.size).sum =
        ((plans.filterMap request.settle).map ChildPlan.size).sum + request.forfeited plans ∧
      (request.finish upper plans).map ChildPlan.price = (plans.filterMap request.settle).map ChildPlan.price ∧
      (request.finish upper plans).map ChildPlan.index = List.range (plans.filterMap request.settle).length ∧
      ∀ plan ∈ request.finish upper plans, ∃ survivor ∈ plans.filterMap request.settle,
        plan.price = survivor.price ∧ survivor.size ≤ plan.size := by
  have lost := forfeited_nonneg request sized
  unfold ExitRequest.finish
  generalize plans.filterMap request.settle = kept at survivors ⊢
  cases kept with
  | nil => exact absurd rfl survivors
  | cons first rest =>
    dsimp only
    generalize grown : (if 0 < request.forfeited plans then { first with size := first.size + request.forfeited plans } else first) = inside
    have size : inside.size = first.size + request.forfeited plans := by
      rw [← grown]
      split_ifs with some
      · rfl
      · rw [le_antisymm (not_lt.1 some) lost, add_zero]
    have price : inside.price = first.price := by
      rw [← grown]
      split_ifs <;> rfl
    have indexes : (((inside :: rest).zipIdx.map fun entry => { entry.1 with index := entry.2 }).map ChildPlan.index) =
        List.range (first :: rest).length := by
      calc _ = (inside :: rest).zipIdx.map Prod.snd := by
            rw [List.map_map]
            rfl
        _ = _ := by rw [List.zipIdx_map_snd, List.range_eq_range', List.length_cons, List.length_cons]
    refine ⟨?_, ?_, indexes, ?_⟩
    · rw [map_renumbered fun _ _ => rfl, List.map_cons, List.map_cons, List.sum_cons, List.sum_cons, size]
      linarith
    · rw [map_renumbered fun _ _ => rfl, List.map_cons, List.map_cons, price]
    · intro plan member
      have ⟨entry, known, same⟩ := List.mem_map.1 member
      have held : entry.1 ∈ inside :: rest := by
        rw [← List.zipIdx_map_fst 0 (inside :: rest)]
        exact List.mem_map_of_mem known
      rw [← same]
      cases List.mem_cons.1 held with
      | inl head => exact ⟨first, List.mem_cons_self, by rw [head, price], by rw [head, size]; linarith⟩
      | inr later => exact ⟨entry.1, List.mem_cons_of_mem _ later, rfl, le_rfl⟩

theorem insidePrice_onTick {request : ExitRequest} (tick : 0 < request.tickSize) : OnTick request.tickSize (request.insidePrice upper) := by
  rw [insidePrice_eq]
  exact clampBinaryPrice_onTick tick _

/-- Where no child survives, one child carries the target if it reaches the minimum notional. -/
theorem finish_single_iff (target : 0 < request.targetSize) (tick : 0 < request.tickSize) (allowed : 1 ≤ request.policy.maxChunks)
    (survivors : (request.layout lower upper).filterMap request.settle = [])
    (lost : ∀ plan ∈ request.layout lower upper, Forfeits request plan) :
    SpreadsTarget upper request (request.finish upper (request.layout lower upper)) ↔ Settles lower upper request := by
  have unpromoted : ∀ plan ∈ request.layout lower upper, ¬ Promotes request plan := fun plan member => (lost plan member).not_promotes
  unfold ExitRequest.finish
  simp only [survivors]
  split_ifs with short
  · have none : request.insidePrice upper * request.targetSize < request.minNotional := by linarith [tolerance_pos]
    refine iff_of_true ⟨fun empty => absurd rfl empty, fun _ member => (nomatch member), fun _ member => (nomatch member), ?_, rfl,
      fun _ member => (nomatch member), fun _ => none⟩ ⟨unpromoted, fun _ plan member _ => lost plan member, fun _ _ _ => short⟩
    rw [List.length_nil]
    omega
  · constructor
    · intro spreads
      exact ⟨unpromoted, fun _ plan member _ => lost plan member, fun above top _ =>
        absurd (spreads.priced _ List.mem_cons_self).2 (not_le.2 (top ▸ above))⟩
    · intro settles
      have cheap : request.insidePrice upper ≤ 99 / 100 := by
        have single := settles.single
        rw [insidePrice_eq] at single short ⊢
        exact le_of_ne_highest tick fun above top => short (single above top lost)
      refine ⟨fun _ => ?_, ?_, ?_, ?_, rfl, ?_, fun empty => (nomatch empty)⟩
      · rw [List.map_singleton, List.sum_singleton, sub_self, abs_zero]
        exact tolerance_pos.le
      · intro plan member
        exact List.mem_singleton.1 member ▸ target
      · intro plan member
        exact List.mem_singleton.1 member ▸ not_lt.1 short
      · rw [List.length_singleton]
        omega
      · intro plan member
        exact List.mem_singleton.1 member ▸ ⟨insidePrice_onTick upper tick, cheap⟩

variable {request}

theorem exists_survivor (member : plan ∈ plans) (priced : 0 < plan.price) (sized : 0 < plan.size)
    (kept : ¬ Forfeits request plan) : ∃ survivor ∈ plans.filterMap request.settle, survivor.price = plan.price := by
  have survives : request.settle plan ≠ none := fun lost => kept ((settle_eq_none_iff priced sized).1 lost)
  have ⟨survivor, settled⟩ := Option.ne_none_iff_exists'.1 survives
  exact ⟨survivor, List.mem_filterMap.2 ⟨plan, member, settled⟩, (settle_some priced sized settled).1⟩

theorem tolerance_lt_excess (priced : 0 < plan.price) (cheap : plan.price ≤ 99 / 100) (promotes : Promotes request plan) :
    tolerance < excess request plan := by
  have more := excess_of_promotes priced promotes
  have whole : tolerance ≤ tolerance / plan.price := by
    rw [le_div_iff₀ priced]
    nlinarith [tolerance_pos]
  exact whole.trans_lt more

variable (request)

section Survivors

variable {lower upper request}

theorem finish_length (sized : ∀ plan ∈ plans, 0 < plan.size) (survivors : plans.filterMap request.settle ≠ []) :
    (request.finish upper plans).length = (plans.filterMap request.settle).length := by
  have same := congrArg List.length (finish_survivors upper request sized survivors).2.1
  rwa [List.length_map, List.length_map] at same

theorem finish_ne_nil (sized : ∀ plan ∈ plans, 0 < plan.size) (survivors : plans.filterMap request.settle ≠ []) :
    request.finish upper plans ≠ [] := by
  intro empty
  have count := @finish_length upper request _ sized survivors
  rw [empty, List.length_nil] at count
  exact survivors (List.length_eq_zero_iff.1 count.symm)

variable (laid : Laid request (request.uniquePrices upper) (request.layout lower upper))
  (positive : ∀ plan ∈ request.layout lower upper, 0 < plan.price ∧ 0 < plan.size)
  (survivors : (request.layout lower upper).filterMap request.settle ≠ [])

include laid positive survivors

theorem SpreadsTarget.settles (spreads : SpreadsTarget upper request (request.finish upper (request.layout lower upper))) :
    Settles lower upper request := by
  have ⟨sizes, prices, _, _⟩ := finish_survivors upper request laid.sized survivors
  have sums := settled_sum request positive
  have cheap : ∀ plan ∈ request.layout lower upper, ¬ Forfeits request plan → plan.price ≤ 99 / 100 := by
    intro plan member unforfeited
    have ⟨priced, sized⟩ := positive plan member
    have ⟨survivor, inside, price⟩ := exists_survivor member priced sized unforfeited
    have placed : plan.price ∈ (request.finish upper (request.layout lower upper)).map ChildPlan.price := by
      rw [prices, ← price]
      exact List.mem_map_of_mem inside
    have ⟨child, held, same⟩ := List.mem_map.1 placed
    exact same ▸ (spreads.priced child held).2
  refine ⟨?_, ?_, ?_⟩
  · intro plan member promotes
    have ⟨priced, _⟩ := positive plan member
    have low := cheap plan member fun forfeits => forfeits.not_promotes promotes
    have whole := laid.exact ⟨plan, member, promotes.1⟩
    have added := tolerance_lt_excess priced low promotes
    have all : excess request plan ≤ ((request.layout lower upper).map (excess request)).sum := by
      apply List.single_le_sum _ _ (List.mem_map_of_mem member)
      intro extra inside
      have ⟨other, known, same⟩ := List.mem_map.1 inside
      exact same ▸ excess_nonneg request (positive other known).1
    have near := (abs_le.1 (spreads.total (finish_ne_nil laid.sized survivors))).2
    linarith
  · intro above plan member top
    by_contra kept
    exact absurd (cheap plan member kept) (not_le.2 (top ▸ above))
  · intro _ _ lost
    refine absurd (List.filterMap_eq_nil_iff.2 fun plan member => ?_) survivors
    have ⟨priced, sized⟩ := positive plan member
    exact (settle_eq_none_iff priced sized).2 (lost plan member)

theorem Settles.spreads (tick : 0 < request.tickSize) (settles : Settles lower upper request) :
    SpreadsTarget upper request (request.finish upper (request.layout lower upper)) := by
  have ⟨sizes, _, indexes, kept⟩ := finish_survivors upper request laid.sized survivors
  have sums := settled_sum request positive
  have count := @finish_length upper request _ laid.sized survivors
  have nothing : ((request.layout lower upper).map (excess request)).sum = 0 := by
    apply List.sum_eq_zero
    intro extra inside
    have ⟨plan, member, same⟩ := List.mem_map.1 inside
    rw [← same, excess, if_neg (settles.unpromoted plan member)]
  have layout : request.layout lower upper ≠ [] := by
    intro empty
    rw [empty] at survivors
    exact survivors rfl
  have child : ∀ plan ∈ request.finish upper (request.layout lower upper), ∃ origin ∈ request.layout lower upper, ∃ survivor,
      request.settle origin = some survivor ∧ plan.price = survivor.price ∧ survivor.size ≤ plan.size := by
    intro plan member
    have ⟨survivor, inside, price, size⟩ := kept plan member
    have ⟨origin, known, settled⟩ := List.mem_filterMap.1 inside
    exact ⟨origin, known, survivor, settled, price, size⟩
  refine ⟨fun _ => ?_, ?_, ?_, ?_, ?_, ?_, fun empty => absurd empty (finish_ne_nil laid.sized survivors)⟩
  · have same : ((request.finish upper (request.layout lower upper)).map ChildPlan.size).sum =
        ((request.layout lower upper).map ChildPlan.size).sum := by linarith
    rw [same]
    exact laid.total layout
  · intro plan member
    have ⟨origin, known, survivor, settled, _, size⟩ := child plan member
    have ⟨priced, sized⟩ := positive origin known
    exact (settle_some priced sized settled).2.1.trans_le size
  · intro plan member
    have ⟨origin, known, survivor, settled, price, size⟩ := child plan member
    have ⟨priced, sized⟩ := positive origin known
    have ⟨same, _, worth⟩ := settle_some priced sized settled
    have above : survivor.price * survivor.size ≤ plan.price * plan.size := by
      rw [price]
      exact mul_le_mul_of_nonneg_left size (same ▸ priced).le
    linarith
  · have fewer := List.length_filterMap_le request.settle (request.layout lower upper)
    have few := laid.few
    omega
  · rw [indexes, count]
  · intro plan member
    have ⟨origin, known, survivor, settled, price, _⟩ := child plan member
    have ⟨priced, sized⟩ := positive origin known
    have ⟨same, _, _⟩ := settle_some priced sized settled
    have unforfeited : ¬ Forfeits request origin := by
      intro forfeits
      rw [(settle_eq_none_iff priced sized).2 forfeits] at settled
      cases settled
    have ⟨level, _, rung⟩ := List.mem_map.1 (mem_dropSeen (laid.priced origin known))
    have cheap : origin.price ≤ 99 / 100 := rung ▸ le_of_ne_highest tick fun above top =>
      unforfeited (settles.below above origin known (rung.symm.trans top))
    rw [price, same]
    exact ⟨onTick_of_mem upper tick (laid.priced origin known), cheap⟩

end Survivors

/-- The plan of a target spreads it exactly if the last pass promotes no child, and keeps none at a tick's price above 0.99. -/
theorem planChildren_spreads_iff (target : 0 < request.targetSize) (trigger : 0 < request.triggerPrice) (tick : 0 < request.tickSize)
    (allowed : 1 ≤ request.policy.maxChunks) :
    SpreadsTarget upper request (request.planChildren lower upper) ↔ Settles lower upper request := by
  have laid := layout_laid lower upper request tick allowed target
  have positive : ∀ plan ∈ request.layout lower upper, 0 < plan.price ∧ 0 < plan.size := fun plan member =>
    ⟨tick.trans_le (onTick_of_mem upper tick (laid.priced plan member)).2, laid.sized plan member⟩
  have planned : request.planChildren lower upper = request.finish upper (request.layout lower upper) :=
    if_neg (not_or.2 ⟨not_le.2 target, not_le.2 trigger⟩)
  rw [planned]
  by_cases survivors : (request.layout lower upper).filterMap request.settle = []
  · have lost : ∀ plan ∈ request.layout lower upper, Forfeits request plan := by
      intro plan member
      have ⟨priced, sized⟩ := positive plan member
      exact (settle_eq_none_iff priced sized).1 (List.filterMap_eq_nil_iff.1 survivors plan member)
    exact finish_single_iff lower upper request target tick allowed survivors lost
  · exact ⟨SpreadsTarget.settles laid positive survivors, Settles.spreads laid positive survivors tick⟩

/-- A ladder of five rungs under the default minimum of one dollar a child. -/
def ladderExit (targetSize : ℚ) : ExitRequest where
  targetSize := targetSize
  triggerPrice := 1 / 2
  side := "SELL"
  policy := { ladder := some {} }

/-- A position large enough for each rung. -/
theorem ladderExit_spreads : SpreadsTarget id (ladderExit 50) ((ladderExit 50).planChildren id id) :=
  (planChildren_spreads_iff id id (ladderExit 50) (by decide) (by decide +kernel) (by decide +kernel) (by decide)).2
    ⟨by decide +kernel, by decide +kernel, by decide +kernel⟩

/-- Of a position of five contracts, more than ten are sold. -/
theorem ladderExit_oversells : ¬ SpreadsTarget id (ladderExit 5) ((ladderExit 5).planChildren id id) := by
  intro spreads
  have near := (abs_le.1 (spreads.total (by decide +kernel))).2
  revert near
  decide +kernel

end Callisto.Exits.Planner
