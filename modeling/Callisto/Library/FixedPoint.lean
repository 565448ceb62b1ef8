import Callisto.Library.DecimalNumbers
import Mathlib.Data.List.Induction
import Mathlib.Tactic.Ring

/-! Decimal texts. A text of digits with at most one point is read exactly; a number of units is written to a fixed number of places, and
reading that text finds the units again. -/

namespace Callisto.Library

/-- The decimal digits of a character set: those of ASCII are among them, and the point is not. -/
structure DigitTable where
  value : Char → Option (Fin 10)
  ascii : ∀ digit : Fin 10, value digit.val.digitChar = some digit
  point : value '.' = none

namespace DigitTable

variable (digits : DigitTable)

/-- `\d` -/
def isDigit (char : Char) : Bool := (digits.value char).isSome

def number (text : List Char) : ℕ := text.foldl (fun total char => total * 10 + ((digits.value char).getD 0).val) 0

/-- `0|[1-9]\d*` -/
def isWhole : List Char → Bool
  | [] => false
  | head :: rest => (head = '0' && rest.isEmpty) || ('1' ≤ head && head ≤ '9' && rest.all digits.isDigit)

def read (text : List Char) : Option Decimal :=
  let whole := text.takeWhile (· ≠ '.')
  if digits.isWhole whole then
    match text.dropWhile (· ≠ '.') with
    | [] => some ⟨false, digits.number whole, 0⟩
    | _ :: places => if !places.isEmpty && places.all digits.isDigit then some ⟨false, digits.number (whole ++ places), -places.length⟩ else none
  else none

end DigitTable

def lastPlaces : ℕ → ℕ → List Char
  | 0, _ => []
  | places + 1, number => lastPlaces places (number / 10) ++ [(number % 10).digitChar]

/-- A number of units of `10 ^ -scale`, in full. -/
def fixedText (scale units : ℕ) : List Char := Nat.toDigits 10 (units / 10 ^ scale) ++ '.' :: lastPlaces scale units

def asciiDigits : DigitTable where
  value char := (List.finRange 10).find? fun digit => digit.val.digitChar = char
  ascii := by decide
  point := by decide

namespace Decimal

/-- A number of units of `10 ^ -scale`. -/
def ofUnits (units scale : ℕ) : Decimal := ⟨false, units, -scale⟩

theorem scaled_ofUnits (units scale : ℕ) : (ofUnits units scale).scaled scale = some (units : ℤ) := by
  rw [scaled_eq_some_iff, value, mul_assoc]
  simp [ofUnits, signed]

theorem scaled_of_exponent {number : Decimal} {scale : ℕ} (places : -(scale : ℤ) ≤ number.exponent) : ∃ units, number.scaled scale = some units := by
  unfold scaled
  dsimp only
  rw [if_pos (by omega)]
  exact ⟨_, rfl⟩

theorem value_eq_iff {first second : Decimal} {scale : ℕ} {units others : ℤ} (counted : first.scaled scale = some units)
    (also : second.scaled scale = some others) : first.value = second.value ↔ units = others := by
  have one := scaled_eq_some_iff.1 counted
  have other := scaled_eq_some_iff.1 also
  have nonzero : (10 : ℚ) ^ scale ≠ 0 := by positivity
  constructor
  · intro same
    rw [same, other] at one
    exact_mod_cast one.symm
  · intro same
    rw [← mul_left_inj' nonzero, one, other, same]

end Decimal

namespace DigitTable

variable {digits : DigitTable}

theorem number_snoc (text : List Char) (char : Char) :
    digits.number (text ++ [char]) = digits.number text * 10 + ((digits.value char).getD 0).val := by
  unfold number
  rw [List.foldl_append]
  rfl

theorem number_append (front back : List Char) : digits.number (front ++ back) = digits.number front * 10 ^ back.length + digits.number back := by
  induction back using List.reverseRecOn with
  | nil => simp [number]
  | append_singleton back char ih =>
    rw [← List.append_assoc, number_snoc, ih, number_snoc, List.length_append, List.length_singleton, pow_succ]
    ring

theorem value_digitChar {digit : ℕ} (small : digit < 10) : digits.value digit.digitChar = some ⟨digit, small⟩ := digits.ascii ⟨digit, small⟩

theorem isDigit_digitChar {digit : ℕ} (small : digit < 10) : digits.isDigit digit.digitChar = true := by
  unfold isDigit
  rw [value_digitChar small]
  rfl

theorem number_digitChar (digits : DigitTable) {digit : ℕ} (small : digit < 10) (text : List Char) :
    digits.number (text ++ [digit.digitChar]) = digits.number text * 10 + digit := by
  rw [number_snoc, value_digitChar small]
  rfl

theorem ne_point {char : Char} (digit : digits.isDigit char = true) : char ≠ '.' := by
  intro same
  unfold isDigit at digit
  rw [same, digits.point] at digit
  cases digit

theorem number_toDigits (number : ℕ) : digits.number (Nat.toDigits 10 number) = number := by
  induction number using Nat.strong_induction_on with
  | _ number ih =>
    by_cases small : number < 10
    · rw [Nat.toDigits_of_lt_base small]
      have read := number_digitChar digits small []
      rw [List.nil_append] at read
      rw [read]
      simp [DigitTable.number]
    · rw [Nat.toDigits_of_base_le (by decide) (by omega), number_digitChar digits (Nat.mod_lt _ (by decide)), ih _ (by omega)]
      omega

theorem toDigits_isDigit (digits : DigitTable) (number : ℕ) : (Nat.toDigits 10 number).all digits.isDigit = true := by
  induction number using Nat.strong_induction_on with
  | _ number ih =>
    by_cases small : number < 10
    · rw [Nat.toDigits_of_lt_base small, List.all_cons, isDigit_digitChar small]
      rfl
    · rw [Nat.toDigits_of_base_le (by decide) (by omega), List.all_append, ih _ (by omega), List.all_cons,
        isDigit_digitChar (Nat.mod_lt _ (by decide))]
      rfl

theorem toDigits_head {number : ℕ} (positive : 0 < number) :
    ∃ digit rest, 0 < digit ∧ digit < 10 ∧ Nat.toDigits 10 number = digit.digitChar :: rest := by
  induction number using Nat.strong_induction_on with
  | _ number ih =>
    by_cases small : number < 10
    · exact ⟨number, [], positive, small, Nat.toDigits_of_lt_base small⟩
    · obtain ⟨digit, rest, nonzero, below, front⟩ := ih (number / 10) (by omega) (by omega)
      refine ⟨digit, rest ++ [(number % 10).digitChar], nonzero, below, ?_⟩
      rw [Nat.toDigits_of_base_le (by decide) (by omega), front, List.cons_append]

theorem isWhole_toDigits (number : ℕ) : digits.isWhole (Nat.toDigits 10 number) = true := by
  by_cases zero : number = 0
  · subst zero
    rfl
  · obtain ⟨digit, rest, nonzero, below, front⟩ := toDigits_head (Nat.pos_of_ne_zero zero)
    have all := toDigits_isDigit digits number
    rw [front, List.all_cons, Bool.and_eq_true] at all
    have shown : ∀ digit : Fin 10, 0 < digit.val → ('1' ≤ digit.val.digitChar && digit.val.digitChar ≤ '9') = true := by decide
    rw [front]
    unfold isWhole
    dsimp only
    rw [all.2, shown ⟨digit, below⟩ nonzero]
    simp

@[simp] theorem length_lastPlaces (places number : ℕ) : (lastPlaces places number).length = places := by
  induction places generalizing number with
  | zero => rfl
  | succ places ih => rw [lastPlaces, List.length_append, ih, List.length_singleton]

theorem lastPlaces_isDigit (places number : ℕ) : (lastPlaces places number).all digits.isDigit = true := by
  induction places generalizing number with
  | zero => rfl
  | succ places ih =>
    rw [lastPlaces, List.all_append, ih, List.all_cons, isDigit_digitChar (Nat.mod_lt _ (by decide))]
    rfl

theorem number_lastPlaces (places number : ℕ) : digits.number (lastPlaces places number) = number % 10 ^ places := by
  induction places generalizing number with
  | zero => rw [pow_zero, Nat.mod_one]; rfl
  | succ places ih =>
    rw [lastPlaces, number_digitChar digits (Nat.mod_lt _ (by decide)), ih, pow_succ, Nat.mul_comm (10 ^ places) 10, Nat.mod_mul]
    ring

theorem read_fixedText (digits : DigitTable) {scale : ℕ} (positive : 0 < scale) (units : ℕ) :
    digits.read (fixedText scale units) = some (.ofUnits units scale) := by
  have plain : ∀ char ∈ Nat.toDigits 10 (units / 10 ^ scale), decide (char ≠ '.') = true := fun char member =>
    decide_eq_true (ne_point (List.all_eq_true.1 (toDigits_isDigit digits _) char member))
  have front : (fixedText scale units).takeWhile (· ≠ '.') = Nat.toDigits 10 (units / 10 ^ scale) := by
    unfold fixedText
    rw [List.takeWhile_append_of_pos plain]
    simp
  have back : (fixedText scale units).dropWhile (· ≠ '.') = '.' :: lastPlaces scale units := by
    unfold fixedText
    rw [List.dropWhile_append_of_pos plain]
    simp
  have some_place : (lastPlaces scale units).isEmpty = false := by
    rw [List.isEmpty_eq_false_iff, ← List.length_pos_iff, length_lastPlaces]
    exact positive
  unfold read
  rw [front, back]
  dsimp only
  rw [if_pos (isWhole_toDigits _), some_place, lastPlaces_isDigit, Bool.not_false, Bool.true_and, if_pos rfl, length_lastPlaces, number_append,
    number_toDigits, number_lastPlaces, length_lastPlaces, Nat.div_add_mod']
  rfl

theorem fixedText_injective {scale : ℕ} (positive : 0 < scale) {first second : ℕ} (same : fixedText scale first = fixedText scale second) :
    first = second := by
  have read := read_fixedText asciiDigits positive first
  rw [same, read_fixedText asciiDigits positive second] at read
  exact (congrArg Decimal.coefficient (Option.some.inj read)).symm

end DigitTable

end Callisto.Library
