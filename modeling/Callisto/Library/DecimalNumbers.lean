import Mathlib.Algebra.Order.Field.Basic
import Mathlib.Data.Rat.Cast.Order
import Mathlib.Tactic.FieldSimp
import Mathlib.Tactic.Linarith
import Mathlib.Tactic.NormNum

/-! Finite decimal numbers: a sign, a coefficient and a power of ten, and their exact conversion to and from integers of a fixed scale. -/

namespace Callisto.Library

structure Decimal where
  negative : Bool := false
  coefficient : ℕ
  exponent : ℤ
  deriving DecidableEq

namespace Decimal

def signed (number : Decimal) (magnitude : ℕ) : ℤ := if number.negative then -magnitude else magnitude

def value (number : Decimal) : ℚ := number.signed number.coefficient * 10 ^ number.exponent

/-- The number in units of `10 ^ -scale`, if it is a whole number of them. -/
def scaled (scale : ℕ) (number : Decimal) : Option ℤ :=
  let shift := number.exponent + scale
  if 0 ≤ shift then some (number.signed (number.coefficient * 10 ^ shift.toNat))
  else
    let divisor := 10 ^ (-shift).toNat
    if number.coefficient % divisor = 0 then some (number.signed (number.coefficient / divisor)) else none

variable {number : Decimal} {scale : ℕ} {units : ℤ}

theorem signed_mul (number : Decimal) (magnitude factor : ℕ) : number.signed (magnitude * factor) = number.signed magnitude * factor := by
  unfold signed
  split <;> simp

/-- The conversion finds the number of units that the value is, and fails exactly if there is none. -/
theorem scaled_eq_some_iff : number.scaled scale = some units ↔ number.value * 10 ^ scale = units := by
  have ten : (10 : ℚ) ≠ 0 := by norm_num
  have shifted : number.value * 10 ^ scale = number.signed number.coefficient * 10 ^ (number.exponent + scale) := by
    rw [value, mul_assoc, zpow_add₀ ten, zpow_natCast]
  rw [shifted]
  unfold scaled
  by_cases whole : 0 ≤ number.exponent + scale
  · have power : (10 : ℚ) ^ (number.exponent + scale) = ((10 ^ (number.exponent + scale).toNat : ℕ) : ℚ) := by
      rw [Nat.cast_pow, Nat.cast_ofNat, ← zpow_natCast, Int.toNat_of_nonneg whole]
    rw [if_pos whole, Option.some_inj, signed_mul, power]
    exact_mod_cast Iff.rfl
  · have power : (10 : ℚ) ^ (number.exponent + scale) = ((10 ^ (-(number.exponent + scale)).toNat : ℕ) : ℚ)⁻¹ := by
      rw [Nat.cast_pow, Nat.cast_ofNat, ← zpow_natCast, Int.toNat_of_nonneg (by omega), zpow_neg, inv_inv]
    have positive : 0 < 10 ^ (-(number.exponent + scale)).toNat := Nat.pow_pos (by decide)
    rw [if_neg whole, power]
    generalize 10 ^ (-(number.exponent + scale)).toNat = divisor at positive ⊢
    have nonzero : (divisor : ℚ) ≠ 0 := by exact_mod_cast positive.ne'
    rw [← div_eq_mul_inv, div_eq_iff nonzero]
    have cast : ((number.signed number.coefficient : ℤ) : ℚ) = units * divisor ↔ number.signed number.coefficient = units * divisor := by
      exact_mod_cast Iff.rfl
    rw [cast]
    by_cases divides : number.coefficient % divisor = 0
    · have split : number.coefficient = number.coefficient / divisor * divisor := (Nat.div_mul_cancel (Nat.dvd_of_mod_eq_zero divides)).symm
      rw [if_pos divides, Option.some_inj]
      conv_rhs => rw [split, signed_mul]
      rw [mul_left_inj' (by exact_mod_cast positive.ne')]
    · rw [if_neg divides]
      constructor
      · intro same
        exact absurd same (by simp)
      · intro same
        have divisible : (divisor : ℤ) ∣ number.signed number.coefficient := ⟨units, by rw [same, mul_comm]⟩
        have magnitude : (divisor : ℤ) ∣ number.coefficient := by
          unfold signed at divisible
          split at divisible
          · exact (Int.dvd_neg).1 divisible
          · exact divisible
        exact absurd (Nat.mod_eq_zero_of_dvd (by exact_mod_cast magnitude)) divides

end Decimal

end Callisto.Library
