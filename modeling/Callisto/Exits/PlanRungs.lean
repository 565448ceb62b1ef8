import Mathlib.Tactic.Linarith
import Mathlib.Tactic.FieldSimp
import Callisto.Exits.ExitPlanner

/-! The rungs of a plan: their prices are on the grid, and their weights positive and together one. -/

namespace Callisto.Exits.Planner

open Callisto.Ws (strip)

theorem tolerance_pos : 0 < tolerance := by
  unfold tolerance
  norm_num

def OnTick (tick price : ℚ) : Prop := (∃ steps : ℤ, price = steps * tick) ∧ tick ≤ price

theorem clampBinaryPrice_onTick {tick : ℚ} (positive : 0 < tick) (price : ℚ) : OnTick tick (clampBinaryPrice price tick) := by
  unfold OnTick clampBinaryPrice roundDownToTick
  rw [if_neg (not_le.2 positive)]
  refine ⟨?_, le_max_left _ _⟩
  cases max_choice tick (⌊max tick (min (99 / 100) price) / tick + 1 / 10 ^ 9⌋ * tick) with
  | inl first => exact ⟨1, by rw [first, Int.cast_one, one_mul]⟩
  | inr second => exact ⟨_, second⟩

/-- The highest price that the grid of a tick gives. -/
def highestPrice (tick : ℚ) : ℚ := clampBinaryPrice 1 tick

theorem eq_highestPrice {tick price : ℚ} (positive : 0 < tick) (above : 99 / 100 < clampBinaryPrice price tick) :
    clampBinaryPrice price tick = highestPrice tick := by
  have ⟨⟨steps, same⟩, least⟩ := clampBinaryPrice_onTick positive price
  have top : max tick (min (99 / 100) 1) / tick ≤ steps := by
    rw [div_le_iff₀ positive, ← same]
    exact max_le least ((min_le_left _ _).trans above.le)
  unfold highestPrice
  apply le_antisymm
  · have capped : min (99 / 100) price ≤ min (99 / 100) 1 := le_min (min_le_left _ _) ((min_le_left _ _).trans (by norm_num))
    unfold clampBinaryPrice roundDownToTick
    rw [if_neg (not_le.2 positive), if_neg (not_le.2 positive)]
    gcongr max _ (⌊max _ ?_ / _ + _⌋ * _)
  · have fewer : ⌊max tick (min (99 / 100) 1) / tick + 1 / 10 ^ 9⌋ ≤ steps := by
      rw [← Int.lt_add_one_iff, Int.floor_lt]
      push_cast
      linarith
    rw [clampBinaryPrice, roundDownToTick, if_neg (not_le.2 positive)]
    refine max_le least ?_
    rw [same]
    gcongr

theorem le_of_ne_highest {tick price : ℚ} (positive : 0 < tick)
    (differs : 99 / 100 < highestPrice tick → clampBinaryPrice price tick ≠ highestPrice tick) :
    clampBinaryPrice price tick ≤ 99 / 100 := by
  by_contra above
  have same := eq_highestPrice positive (not_le.1 above)
  exact differs (same ▸ not_le.1 above) same

theorem mem_dropSeen {seen prices : List ℚ} {price : ℚ} (member : price ∈ dropSeen seen prices) : price ∈ prices := by
  induction prices generalizing seen with
  | nil => exact member
  | cons first rest ih =>
    unfold dropSeen at member
    split_ifs at member
    · exact List.mem_cons_of_mem _ (ih member)
    · cases List.mem_cons.1 member with
      | inl same => exact same ▸ List.mem_cons_self
      | inr later => exact List.mem_cons_of_mem _ (ih later)

theorem length_dropSeen (seen prices : List ℚ) : (dropSeen seen prices).length ≤ prices.length := by
  induction prices generalizing seen with
  | nil => exact le_rfl
  | cons first rest ih =>
    have now := ih seen
    have later := ih (first :: seen)
    unfold dropSeen
    split_ifs
    · rw [List.length_cons]
      omega
    · rw [List.length_cons, List.length_cons]
      omega

section Weights

theorem sum_pos {sizes : List ℚ} (positive : ∀ size ∈ sizes, 0 < size) (nonempty : sizes ≠ []) : 0 < sizes.sum :=
  List.sum_pos sizes positive nonempty

theorem sum_div (sizes : List ℚ) (total : ℚ) : (sizes.map fun size => size / total).sum = sizes.sum / total := by
  induction sizes with
  | nil => simp
  | cons size rest ih => rw [List.map_cons, List.sum_cons, List.sum_cons, ih, add_div]

theorem sum_mul (sizes : List ℚ) (factor : ℚ) : (sizes.map fun size => size * factor).sum = sizes.sum * factor := by
  induction sizes with
  | nil => simp
  | cons size rest ih => rw [List.map_cons, List.sum_cons, List.sum_cons, ih, add_mul]

theorem rawWeights_pos (mode : String) (n : ℕ) : ∀ weight ∈ rawWeights mode n, 0 < weight := by
  intro weight member
  unfold rawWeights at member
  split_ifs at member
  · have ⟨i, inside, same⟩ := List.mem_map.1 member
    have below : (i : ℚ) < n := Nat.cast_lt.2 (List.mem_range.1 inside)
    linarith
  · have ⟨i, _, same⟩ := List.mem_map.1 member
    have nonneg : (0 : ℚ) ≤ i := Nat.cast_nonneg i
    linarith
  · rw [List.eq_of_mem_replicate member]
    exact one_pos

theorem rawWeights_length (mode : String) (n : ℕ) : (rawWeights mode n).length = n := by
  unfold rawWeights
  split_ifs <;> simp

theorem distributionWeights_spec (lower : String → String) (levels : ℕ) (distribution : String) :
    (∀ weight ∈ distributionWeights lower levels distribution, 0 < weight) ∧
      (distributionWeights lower levels distribution).sum = 1 ∧
      (distributionWeights lower levels distribution).length = max 1 levels := by
  unfold distributionWeights
  generalize lower (strip (if distribution = "" then "uniform" else distribution)) = mode
  have positive := rawWeights_pos mode (max 1 levels)
  have long := rawWeights_length mode (max 1 levels)
  have nonempty : rawWeights mode (max 1 levels) ≠ [] := by
    intro empty
    rw [empty, List.length_nil] at long
    omega
  have total := sum_pos positive nonempty
  simp only [if_neg (not_le.2 total), List.length_map, long, sum_div, div_self total.ne', and_self, and_true]
  intro weight member
  have ⟨share, inside, same⟩ := List.mem_map.1 member
  exact same ▸ div_pos (positive share inside) total

end Weights

section Rungs

variable (lower upper : String → String) (request : ExitRequest)

theorem levels_pos : 1 ≤ request.levels := by
  unfold ExitRequest.levels
  omega

theorem levels_le (allowed : 1 ≤ request.policy.maxChunks) : (request.levels : ℤ) ≤ request.policy.maxChunks := by
  unfold ExitRequest.levels
  omega

theorem uniquePrices_cons : ∃ rest, request.uniquePrices upper = request.rawPrice upper 0 :: rest := by
  have ⟨below, same⟩ := Nat.exists_eq_add_of_le (levels_pos request)
  unfold ExitRequest.uniquePrices
  rw [same, Nat.add_comm, List.range_succ_eq_map, List.map_cons]
  exact ⟨_, rfl⟩

theorem insidePrice_eq : request.insidePrice upper = request.rawPrice upper 0 := by
  have ⟨rest, same⟩ := uniquePrices_cons upper request
  unfold ExitRequest.insidePrice
  rw [same]
  rfl

theorem uniquePrices_length : 1 ≤ (request.uniquePrices upper).length ∧ (request.uniquePrices upper).length ≤ request.levels := by
  have ⟨rest, same⟩ := uniquePrices_cons upper request
  have long := length_dropSeen [] ((List.range request.levels).map (request.rawPrice upper))
  rw [List.length_map, List.length_range] at long
  refine ⟨?_, long⟩
  rw [same, List.length_cons]
  omega

theorem onTick_of_mem {request : ExitRequest} (positive : 0 < request.tickSize) {price : ℚ}
    (member : price ∈ request.uniquePrices upper) : OnTick request.tickSize price := by
  have ⟨level, _, same⟩ := List.mem_map.1 (mem_dropSeen member)
  rw [← same]
  exact clampBinaryPrice_onTick positive _

theorem weights_length : (request.weights lower upper).length = (request.uniquePrices upper).length := by
  have long := (distributionWeights_spec lower (request.uniquePrices upper).length
    (request.policy.ladder.elim "uniform" LadderSpec.distribution)).2.2
  have ⟨nonempty, _⟩ := uniquePrices_length upper request
  unfold ExitRequest.weights
  omega

theorem rungs_weights : (request.rungs lower upper).map Rung.weight = request.weights lower upper := by
  unfold ExitRequest.rungs
  have same : (Rung.weight ∘ fun entry : (ℚ × ℚ) × ℕ => (⟨entry.2, entry.1.1, entry.1.2⟩ : Rung)) = Prod.snd ∘ Prod.fst := rfl
  rw [List.map_map, same, ← List.map_map, List.zipIdx_map_fst, List.map_snd_zip (weights_length lower upper request).le]

theorem rungs_prices : (request.rungs lower upper).map Rung.price = request.uniquePrices upper := by
  unfold ExitRequest.rungs
  have same : (Rung.price ∘ fun entry : (ℚ × ℚ) × ℕ => (⟨entry.2, entry.1.1, entry.1.2⟩ : Rung)) = Prod.fst ∘ Prod.fst := rfl
  rw [List.map_map, same, ← List.map_map, List.zipIdx_map_fst, List.map_fst_zip (weights_length lower upper request).ge]

theorem rungs_length : (request.rungs lower upper).length = (request.uniquePrices upper).length := by
  rw [← rungs_prices lower upper, List.length_map]

theorem rung_price {rung : Rung} (member : rung ∈ request.rungs lower upper) : rung.price ∈ request.uniquePrices upper := by
  rw [← rungs_prices lower upper]
  exact List.mem_map_of_mem member

theorem rung_weight {rung : Rung} (member : rung ∈ request.rungs lower upper) : 0 < rung.weight := by
  have inside : rung.weight ∈ request.weights lower upper := by
    rw [← rungs_weights]
    exact List.mem_map_of_mem member
  exact (distributionWeights_spec lower _ _).1 _ inside

theorem rungs_total : ((request.rungs lower upper).map Rung.weight).sum = 1 := by
  rw [rungs_weights]
  exact (distributionWeights_spec lower _ _).2.1

end Rungs

end Callisto.Exits.Planner
