import Mathlib.Tactic.Common
import Mathlib.Algebra.Order.Ring.Int

/-! Casts between machine integers, and the quotients taken in floating point. -/

namespace RedisCell

/-- An exact value that a signed 64-bit word represents without wrapping. -/
abbrev FitsI64 (value : Int) : Prop := -2 ^ 63 ≤ value ∧ value < 2 ^ 63

/--
`(dividend as f64 / divisor as f64) as i64`.

Both operands and their quotient are rounded, and the cast truncates toward zero and saturates.
-/
def quotientF64 (dividend divisor : Int) : Int64 :=
  (Float.Model.ofInt dividend / Float.Model.ofInt divisor).toInt64

/--
The same cast of the exact quotient, which floating point may round.

A zero divisor gives an infinity, which saturates, or a NaN, which the cast sends to zero.
-/
def quotientAsI64 (dividend divisor : Int) : Int64 :=
  -- A positive zero divisor leaves the sign of the infinity to the dividend.
  if divisor = 0 then
    if dividend = 0 then 0 else if 0 < dividend then Int64.maxValue else Int64.minValue
  else Int64.ofIntClamp (dividend.tdiv divisor)

/-- Truncation toward zero divides the magnitude and keeps the sign. -/
theorem tdiv_cases (value divisor : Int) :
    (0 ≤ value ∧ value.tdiv divisor = value / divisor) ∨
      (value < 0 ∧ value.tdiv divisor = -(-value / divisor)) := by
  -- Negating the dividend negates the quotient.
  rcases lt_or_ge value 0 with negative | nonneg
  · right
    refine ⟨negative, ?_⟩
    rw [← Int.tdiv_eq_ediv_of_nonneg (by omega : 0 ≤ -value), Int.neg_tdiv, neg_neg]
  · exact Or.inl ⟨nonneg, Int.tdiv_eq_ediv_of_nonneg nonneg⟩

/-- A word's own value fits the word. -/
theorem fitsI64_toInt (word : Int64) : FitsI64 word.toInt :=
  -- Two's complement bounds every word on both sides.
  ⟨word.le_toInt, word.toInt_lt⟩

/-- Casting an exact value keeps it when it fits the word. -/
theorem toInt_ofInt_of_fits {value : Int} (fits : FitsI64 value) :
    (Int64.ofInt value).toInt = value := by
  -- The balanced remainder of a value already in range is the value itself.
  exact Int64.toInt_ofInt_of_le fits.1 fits.2

/-- A cast word always fits, so it is exact only when the exact value fits. -/
theorem toInt_ofInt_eq_iff {value : Int} : (Int64.ofInt value).toInt = value ↔ FitsI64 value := by
  -- One direction reads the range off the cast word, and the other is exactness in range.
  constructor
  · intro exact_
    rw [← exact_]
    exact fitsI64_toInt _
  · exact toInt_ofInt_of_fits

/-- A wrapped sum is the cast of the exact sum. -/
theorem toInt_add_eq (left right : Int64) :
    left + right = Int64.ofInt (left.toInt + right.toInt) := by
  -- Both words have the same balanced remainder.
  apply Int64.toInt_inj.mp
  simp

/-- A sum of words is exact only when the exact sum fits. -/
theorem toInt_add_eq_iff (left right : Int64) :
    (left + right).toInt = left.toInt + right.toInt ↔ FitsI64 (left.toInt + right.toInt) := by
  -- The wrapped sum is a cast, whose exactness is already characterized.
  rw [toInt_add_eq]
  exact toInt_ofInt_eq_iff

/-- A saturating cast moves an exact value to the nearest end of the word's range. -/
theorem toInt_ofIntClamp (value : Int) :
    (Int64.ofIntClamp value).toInt = max (-2 ^ 63) (min value (2 ^ 63 - 1)) := by
  -- The three cases are a value below the range, inside it, and above it.
  unfold Int64.ofIntClamp
  have low : Int64.minValue.toInt = -2 ^ 63 := by decide
  have high : Int64.maxValue.toInt = 2 ^ 63 - 1 := by decide
  split
  · split
    · rename_i atLeast atMost
      rw [Int64.toInt_ofIntLE]
      omega
    · omega
  · omega

/-- A saturating cast is exact precisely on the values that fit. -/
theorem toInt_ofIntClamp_eq_iff {value : Int} :
    (Int64.ofIntClamp value).toInt = value ↔ FitsI64 value := by
  -- Clamping fixes exactly the values that already lie between the two ends.
  rw [toInt_ofIntClamp]
  omega

end RedisCell
