import Mathlib.Algebra.Order.Floor.Ring
import Mathlib.Algebra.Order.Ring.Rat
import Mathlib.Data.Rat.Floor
import Mathlib.Tactic.FieldSimp
import Mathlib.Tactic.Linarith
import Mathlib.Tactic.Positivity

/-! Rounding of rationals to a number of decimals, ties to even. -/

namespace Callisto.Library.Decimals

def nearest (value : ℚ) : ℤ :=
  if value - ⌊value⌋ < 1 / 2 then ⌊value⌋
  else if 1 / 2 < value - ⌊value⌋ then ⌊value⌋ + 1
  else if ⌊value⌋ % 2 = 0 then ⌊value⌋ else ⌊value⌋ + 1

def roundTo (decimals : ℕ) (value : ℚ) : ℚ := nearest (value * 10 ^ decimals) / 10 ^ decimals

theorem floor_le_nearest (value : ℚ) : ⌊value⌋ ≤ nearest value := by
  unfold nearest
  split_ifs <;> omega

theorem nearest_le_floor_add_one (value : ℚ) : nearest value ≤ ⌊value⌋ + 1 := by
  unfold nearest
  split_ifs <;> omega

theorem nearest_intCast (value : ℤ) : nearest (value : ℚ) = value := by
  unfold nearest
  rw [Int.floor_intCast, sub_self, if_pos (by norm_num)]

theorem nearest_mono {first second : ℚ} (le : first ≤ second) : nearest first ≤ nearest second := by
  have floors : ⌊first⌋ ≤ ⌊second⌋ := Int.floor_le_floor le
  by_cases same : ⌊first⌋ = ⌊second⌋
  · unfold nearest
    rw [same]
    split_ifs <;> first | omega | linarith
  · have first_le := nearest_le_floor_add_one first
    have le_second := floor_le_nearest second
    omega

theorem nearest_close (value : ℚ) : value - 1 / 2 ≤ nearest value ∧ (nearest value : ℚ) ≤ value + 1 / 2 := by
  have low := Int.floor_le value
  have high := (Int.lt_floor_add_one value).le
  unfold nearest
  split_ifs <;> push_cast <;> constructor <;> linarith

theorem roundTo_mono (decimals : ℕ) {first second : ℚ} (le : first ≤ second) : roundTo decimals first ≤ roundTo decimals second := by
  have positive : (0 : ℚ) < 10 ^ decimals := by positivity
  have scaled : nearest (first * 10 ^ decimals) ≤ nearest (second * 10 ^ decimals) :=
    nearest_mono (mul_le_mul_of_nonneg_right le positive.le)
  exact div_le_div_of_nonneg_right (by exact_mod_cast scaled) positive.le

theorem roundTo_close (decimals : ℕ) (value : ℚ) :
    value - 1 / (2 * 10 ^ decimals) ≤ roundTo decimals value ∧ roundTo decimals value ≤ value + 1 / (2 * 10 ^ decimals) := by
  have positive : (0 : ℚ) < 10 ^ decimals := by positivity
  obtain ⟨low, high⟩ := nearest_close (value * 10 ^ decimals)
  unfold roundTo
  constructor
  · rw [le_div_iff₀ positive]
    calc
      _ = value * 10 ^ decimals - 1 / 2 := by field_simp
      _ ≤ _ := low
  · rw [div_le_iff₀ positive]
    calc
      _ ≤ value * 10 ^ decimals + 1 / 2 := high
      _ = _ := by field_simp

theorem roundTo_of_scaled {decimals : ℕ} {value : ℚ} {scaled : ℤ} (exact_value : value * 10 ^ decimals = scaled) :
    roundTo decimals value = value := by
  have positive : (0 : ℚ) < 10 ^ decimals := by positivity
  unfold roundTo
  rw [exact_value, nearest_intCast, ← exact_value, mul_div_assoc, div_self positive.ne', mul_one]

end Callisto.Library.Decimals
