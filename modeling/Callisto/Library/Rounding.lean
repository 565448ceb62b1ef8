import Mathlib.Data.Nat.Digits.Lemmas
import Mathlib.Tactic.Positivity
import Mathlib.Tactic.Ring

/-! Rounding of integers to a number of significant decimal digits, ties to even. -/

namespace Callisto.Library.Rounding

/-- The decimal digits of a magnitude beyond the first `precision`. -/
def excessDigits (precision magnitude : ℕ) : ℕ := (Nat.digits 10 magnitude).length - precision

/-- The quotient by `unit`, to the nearest and to the even neighbour in a tie. -/
def halfEven (magnitude unit : ℕ) : ℕ :=
  let quotient := magnitude / unit
  let remainder := magnitude % unit
  if 2 * remainder < unit then quotient
  else if unit < 2 * remainder then quotient + 1
  else if quotient % 2 = 0 then quotient else quotient + 1

/-- The nearest magnitude of at most `precision` significant digits. -/
def roundMagnitude (precision magnitude : ℕ) : ℕ :=
  let unit := 10 ^ excessDigits precision magnitude
  halfEven magnitude unit * unit

/-- The nearest integer of at most `precision` significant digits. -/
def roundSig (precision : ℕ) (value : ℤ) : ℤ := value.sign * roundMagnitude precision value.natAbs

/-- The value has at most `precision` significant digits. -/
def Representable (precision : ℕ) (value : ℤ) : Prop := 10 ^ excessDigits precision value.natAbs ∣ value.natAbs

instance (precision : ℕ) (value : ℤ) : Decidable (Representable precision value) :=
  inferInstanceAs (Decidable (_ ∣ _))

theorem halfEven_mul_eq_self_iff {magnitude unit : ℕ} (positive : 0 < unit) :
    halfEven magnitude unit * unit = magnitude ↔ unit ∣ magnitude := by
  constructor
  · intro equal
    exact ⟨halfEven magnitude unit, by rw [Nat.mul_comm, equal]⟩
  · rintro ⟨quotient, rfl⟩
    simp [halfEven, Nat.mul_div_cancel_left quotient positive, positive, Nat.mul_comm]

theorem le_halfEven {magnitude unit bound : ℕ} (positive : 0 < unit) (above : bound * unit ≤ magnitude) : bound ≤ halfEven magnitude unit := by
  have quotient : bound ≤ magnitude / unit := (Nat.le_div_iff_mul_le positive).2 above
  unfold halfEven
  dsimp only
  split_ifs <;> omega

theorem halfEven_le {magnitude unit bound : ℕ} (positive : 0 < unit) (below : magnitude ≤ bound * unit) : halfEven magnitude unit ≤ bound := by
  by_cases whole : magnitude = bound * unit
  · rw [whole]
    exact (Nat.eq_of_mul_eq_mul_right positive ((halfEven_mul_eq_self_iff positive).2 ⟨bound, Nat.mul_comm _ _⟩)).le
  · have quotient : magnitude / unit < bound := (Nat.div_lt_iff_lt_mul positive).2 (lt_of_le_of_ne below whole)
    unfold halfEven
    dsimp only
    split_ifs <;> omega

theorem roundSig_eq_self_iff (precision : ℕ) (value : ℤ) :
    roundSig precision value = value ↔ Representable precision value := by
  unfold roundSig Representable
  rw [← halfEven_mul_eq_self_iff (by positivity : 0 < 10 ^ excessDigits precision value.natAbs)]
  by_cases zero : value = 0
  · subst zero
    simp [roundMagnitude, halfEven]
  · have nonzero : value.sign ≠ 0 := by simpa using zero
    conv_lhs => rhs; rw [← Int.sign_mul_natAbs value]
    rw [mul_right_inj' nonzero, Int.natCast_inj]
    rfl

theorem representable_of_small {precision : ℕ} {value : ℤ} (small : value.natAbs < 10 ^ precision) :
    Representable precision value := by
  have few : (Nat.digits 10 value.natAbs).length ≤ precision :=
    (Nat.digits_length_le_iff (by decide) value.natAbs).2 small
  simp [Representable, excessDigits, Nat.sub_eq_zero_of_le few]

theorem roundSig_pos {precision : ℕ} {value : ℤ} (some : 0 < precision) (positive : 0 < value) :
    0 < roundSig precision value := by
  have magnitude : value.natAbs ≠ 0 := by omega
  have leading : 10 ^ excessDigits precision value.natAbs ≤ value.natAbs := by
    have digits : (Nat.digits 10 value.natAbs).length ≠ 0 :=
      List.length_eq_zero_iff.not.2 (Nat.digits_ne_nil_iff_ne_zero.2 magnitude)
    have fewer : excessDigits precision value.natAbs < (Nat.digits 10 value.natAbs).length := by
      unfold excessDigits
      omega
    exact (Nat.lt_digits_length_iff (by decide) value.natAbs).1 fewer
  have unit : 0 < 10 ^ excessDigits precision value.natAbs := by positivity
  have quotient : 0 < halfEven value.natAbs (10 ^ excessDigits precision value.natAbs) := by
    have whole : 0 < value.natAbs / 10 ^ excessDigits precision value.natAbs := Nat.div_pos leading unit
    unfold halfEven
    simp only
    split_ifs <;> omega
  have product : 0 < roundMagnitude precision value.natAbs := Nat.mul_pos quotient unit
  rw [roundSig, Int.sign_eq_one_of_pos positive, one_mul]
  exact_mod_cast product

end Callisto.Library.Rounding
