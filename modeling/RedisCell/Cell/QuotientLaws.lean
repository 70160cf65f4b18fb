import RedisCell.Cell.Quotients
import RedisCell.Float.Quotient

/-! Quotients in floating point: their sign, and when they are the exact ones. -/

namespace RedisCell

open Binary64

/-- A dividend of at most fifty-three bits is divided exactly. -/
theorem quotientF64_eq {dividend divisor : Int} (short : dividend.natAbs < 2 ^ 53)
    (bounded : divisor.natAbs < 2 ^ 64) :
    quotientF64 dividend divisor = quotientAsI64 dividend divisor := by
  -- Each zero is its own case, as the floating-point quotient treats it apart.
  unfold quotientF64 quotientAsI64
  split
  · -- The cast saturates at an infinity, and makes zero of what is no number.
    rename_i zero
    rw [zero, toInt64_div_zero (by omega)]
  · rename_i nonzero
    by_cases none_ : dividend = 0
    · -- Zero has no bits to round.
      rw [none_, toInt64_zero_div (by omega) nonzero, Int.zero_tdiv]
      rfl
    · obtain ⟨magnitude, cast, exact_⟩ :=
        toInt64_div (show dividend.natAbs < 2 ^ 100 by omega) (by omega) none_ nonzero
      rw [cast, exact_ short, apply_div, apply_signOf, apply_signOf]

-- One more bit is lost before the division.
example : quotientF64 (2 ^ 53 + 1) 1 ≠ quotientAsI64 (2 ^ 53 + 1) 1 := by decide +kernel

/-- A quotient that does not vanish takes its sign from those of its operands. -/
theorem quotientF64_pos_iff {dividend divisor : Int} (bounded : dividend.natAbs < 2 ^ 100)
    (bounded' : divisor.natAbs < 2 ^ 100) (nonzero : dividend ≠ 0) (nonzero' : divisor ≠ 0)
    (some_ : (quotientF64 dividend divisor).toInt ≠ 0) :
    0 < (quotientF64 dividend divisor).toInt ↔ (0 < divisor ↔ 0 < dividend) := by
  -- The quotient has a magnitude, and the sign that its operands combine to.
  obtain ⟨magnitude, cast, -⟩ := toInt64_div bounded bounded' nonzero nonzero'
  -- Truncation leaves a magnitude, and saturation does not change its sign.
  have read : (quotientF64 dividend divisor).toInt = max (-2 ^ 63)
      (min (if dividend < 0 ↔ divisor < 0 then (magnitude : Int) else -magnitude)
        (2 ^ 63 - 1)) := by
    rw [quotientF64, cast, toInt_ofIntClamp, apply_signOf_div]
  rw [read] at some_ ⊢
  split at some_
  · rw [if_pos (by assumption)]
    omega
  · rw [if_neg (by assumption)]
    omega

/-- A period of at most fifty-three bits of nanoseconds is divided exactly by every count. -/
theorem Rate.perPeriod_eq {n : Int64} {period : Duration}
    (short : period.wholeNanoseconds.natAbs < 2 ^ 53) :
    Rate.perPeriod n period = Rate.perPeriodExact n period := by
  -- A count is a word, so its quotient is the exact one.
  have fits := fitsI64_toInt n
  simp only [perPeriod, perPeriodExact,
    quotientF64_eq short (show n.toInt.natAbs < 2 ^ 64 by omega)]

/-- The interval of a rate is a word of nanoseconds. -/
theorem Rate.perPeriod_fits (n : Int64) (period : Duration) :
    FitsI64 (Rate.perPeriod n period).period.nanos := by
  unfold perPeriod
  simp only
  -- Both branches make it of a word.
  split
  · exact fitsI64_toInt 0
  · exact fitsI64_toInt (quotientF64 _ _)

namespace RateLimiter

/-- What is left of the tolerance at a TTL has at most fifty-three bits of microseconds. -/
def Countable (limiter : RateLimiter) (ttl : Duration) : Prop :=
  (limiter.delayVariationTolerance - ttl).wholeMicroseconds.natAbs < 2 ^ 53

/-- What is left of the tolerance is then divided exactly. -/
theorem exactly_report {limiter : RateLimiter} {settled : Settled}
    (fits : FitsI64 limiter.emissionInterval.nanos) (countable : limiter.Countable settled.ttl) :
    limiter.exactly (limiter.report settled).2 = (limiter.report settled).2 := by
  -- The divisor is within the range in which a quotient of whole numbers is exact.
  have bounded : limiter.emissionInterval.wholeMicroseconds.natAbs < 2 ^ 64 := by
    have cut := Nat.div_le_self limiter.emissionInterval.nanos.natAbs 1000
    rw [Duration.wholeMicroseconds, Int.natAbs_tdiv]
    show limiter.emissionInterval.nanos.natAbs / 1000 < 2 ^ 64
    omega
  -- A report names its TTL, from which the remainder is counted again.
  simp only [exactly, remainingExact, report, quotientF64_eq countable bounded]

end RateLimiter

end RedisCell
