import RedisCell.Float.Rounding

/-! Whole numbers in binary64, and when the quotient of two of them is truncated exactly. -/

namespace Binary64

open Float.Model Float.Model.UnpackedFloat

/-- A mantissa of full length and its exponent are a whole number. -/
structure Whole (mantissa : Nat) (exponent : Int) (value : Nat) : Prop where
  full : mantissa.log2 = 52
  holds : ∃ up down : Nat, exponent = up - down ∧ mantissa * 2 ^ up = value * 2 ^ down

/-- A whole number that is nearest to another one is the same. -/
theorem Nearest.eq {whole num : Nat} (nearest : Nearest whole num 1) : whole = num := by
  -- Less than one lies on either side.
  have above := nearest.above
  have below := nearest.below
  omega

/-- A magnitude is first given enough bits, and then rounded to its leading ones. -/
theorem round_eq {magnitude : Nat} (sign : Sign) (bounded : magnitude.log2 < 100) :
    UnpackedFloat.round .binary64 sign magnitude 0 =
      roundWithAccuracy .binary64 sign (magnitude <<< (52 - magnitude.log2))
        (0 - (52 - magnitude.log2 : Nat)) .exact := by
  -- The exponent 0 is far above the least one, so the mantissa is filled up to 53 bits.
  have amount : (0 - Format.binary64.targetExponent (totalExponent magnitude 0)).toNat =
      52 - magnitude.log2 := by
    simp only [Format.targetExponent, totalExponent, Format.mantissaBits, Format.minExponent]
    omega
  simp only [UnpackedFloat.round, decreaseExponent, amount]

/-- A short magnitude is shifted until its leading bit is in place. -/
theorem log2_shifted {magnitude : Nat} (positive : 0 < magnitude) (short : magnitude.log2 ≤ 52) :
    (magnitude <<< (52 - magnitude.log2)).log2 = 52 := by
  obtain ⟨least, most⟩ := (Nat.log2_eq_iff (n := magnitude) (by omega)).mp rfl
  -- Shifting by the missing places moves both bounds of the leading bit.
  rw [log2_eq_iff, Nat.shiftLeft_eq]
  have place : 2 ^ magnitude.log2 * 2 ^ (52 - magnitude.log2) = 2 ^ 52 := by
    rw [← Nat.pow_add, Nat.add_sub_cancel' short]
  have next : 2 ^ (magnitude.log2 + 1) * 2 ^ (52 - magnitude.log2) = 2 ^ 53 := by
    rw [Nat.pow_succ, Nat.mul_right_comm, place]
    rfl
  rw [← place, ← next]
  exact ⟨Nat.mul_le_mul_right _ least, Nat.mul_lt_mul_of_pos_right most (Nat.two_pow_pos _)⟩

/-- A magnitude of at most fifty-three bits is the same in binary64. -/
theorem unpack_round_short {magnitude : Nat} (sign : Sign) (positive : 0 < magnitude)
    (short : magnitude < 2 ^ 53) :
    ∃ (mantissa : Nat) (exponent : Int) (pos : 0 < mantissa),
      (Float.Model.pack (UnpackedFloat.round .binary64 sign magnitude 0)).unpack =
        .finite sign mantissa exponent pos ∧
      Whole mantissa exponent magnitude ∧ -52 ≤ exponent ∧ exponent ≤ 0 := by
  -- The shifted magnitude has fifty-three bits, none of which is rounded away.
  have bits : magnitude.log2 < 53 := (Nat.log2_lt (by omega)).mpr short
  have place := log2_shifted positive (by omega)
  have normal : (-1074 : Int) ≤ 0 - (52 - magnitude.log2 : Nat) := by omega
  obtain ⟨mantissa, carry, pos, rounds, full, once, nearest⟩ :=
    roundWithAccuracy_normal sign (stands_exact (magnitude <<< (52 - magnitude.log2))) Nat.one_pos
      (Nat.le_of_eq place.symm) normal
  rw [place] at rounds nearest
  have same := nearest.eq
  -- There is nothing to carry, since no bit is lost.
  have single : carry = 0 := by
    have below := (log2_eq_iff.mp place).2
    have above := (log2_eq_iff.mp full).1
    rcases Nat.le_one_iff_eq_zero_or_eq_one.mp once with none_ | carried
    · exact none_
    · rw [carried] at same
      omega
  subst single
  rw [round_eq sign (by omega), rounds, unpack_pack sign pos full (by omega) (by omega)]
  refine ⟨mantissa, _, pos, rfl, ⟨full, 0, 52 - magnitude.log2, by omega, ?_⟩, by omega, by omega⟩
  rw [same, Nat.shiftLeft_eq]

/-- A longer magnitude is a whole number that is as long. -/
theorem unpack_round_long {magnitude : Nat} (sign : Sign) (long : 2 ^ 53 ≤ magnitude)
    (bounded : magnitude < 2 ^ 100) :
    ∃ (mantissa : Nat) (exponent : Int) (pos : 0 < mantissa) (value : Nat),
      (Float.Model.pack (UnpackedFloat.round .binary64 sign magnitude 0)).unpack =
        .finite sign mantissa exponent pos ∧
      Whole mantissa exponent value ∧ 0 ≤ exponent ∧ exponent ≤ 48 ∧ 2 ^ 53 ≤ value := by
  -- A long magnitude is rounded to fifty-three bits, and is scaled back to as many as it had.
  have bits : magnitude.log2 < 100 := (Nat.log2_lt (by omega)).mpr bounded
  have more : 53 ≤ magnitude.log2 := (Nat.le_log2 (by omega)).mpr long
  have normal : (-1074 : Int) ≤ 0 := by decide
  obtain ⟨mantissa, carry, pos, rounds, full, once, -⟩ :=
    roundWithAccuracy_normal sign (stands_exact magnitude) Nat.one_pos (by omega) normal
  rw [round_eq sign bits, show 52 - magnitude.log2 = 0 by omega]
  have unshifted : magnitude <<< 0 = magnitude := Nat.shiftLeft_zero
  rw [unshifted, show (0 : Int) - (0 : Nat) = 0 from rfl, rounds,
    unpack_pack sign pos full (by omega) (by omega)]
  -- At least one bit is cut off, so the value has more bits than the mantissa.
  refine ⟨mantissa, _, pos, mantissa * 2 ^ (magnitude.log2 - 52 + carry), rfl,
    ⟨full, magnitude.log2 - 52 + carry, 0, by omega, by simp⟩, by omega, by omega, ?_⟩
  have above := (log2_eq_iff.mp full).1
  have doubled : 2 ^ 1 ≤ 2 ^ (magnitude.log2 - 52 + carry) :=
    Nat.pow_le_pow_right (by decide) (by omega)
  calc 2 ^ 53 = 2 ^ 52 * 2 ^ 1 := rfl
    _ ≤ mantissa * 2 ^ (magnitude.log2 - 52 + carry) := Nat.mul_le_mul above doubled

/-- A number is truncated to the whole part of its magnitude. -/
theorem roundToInt_eq (sign : Sign) (mantissa up down : Nat) :
    roundToInt sign mantissa ((up : Int) - down) =
      sign.apply (mantissa * 2 ^ up / 2 ^ down : Nat) := by
  -- The places after the point are shifted away, if there are any.
  unfold roundToInt decreaseExponent shiftToExponent
  simp only [Int.sub_zero]
  rw [((stands_exact _).shiftRight Nat.one_pos _).mantissa, Nat.one_mul, Nat.shiftLeft_eq]
  rcases Nat.le_total down up with above | below
  · -- No bit lies after the point.
    rw [show ((up : Int) - down).toNat = up - down by omega,
      show (0 - ((up : Int) - down - (up - down : Nat))).toNat = 0 by omega, Nat.pow_zero,
      Nat.div_one, ← Nat.pow_div above (by decide), ← Nat.mul_div_assoc _ (Nat.pow_dvd_pow 2 above)]
  · have split : 2 ^ down = 2 ^ (down - up) * 2 ^ up := by
      rw [← Nat.pow_add, Nat.sub_add_cancel below]
    rw [show ((up : Int) - down).toNat = 0 by omega,
      show (0 - ((up : Int) - down - (0 : Nat))).toNat = down - up by omega, Nat.pow_zero,
      Nat.mul_one, split, Nat.mul_div_mul_right _ _ (Nat.two_pow_pos up)]

/-- Whether a whole number is nearest to a fraction depends on its value only. -/
theorem Nearest.congr {whole num den num' den' : Nat} (nearest : Nearest whole num den)
    (positive : 0 < den) (same : num * den' = num' * den) : Nearest whole num' den' := by
  constructor
  · -- Both bounds are scaled by the old denominator, and back by the new one.
    refine Nat.le_of_mul_le_mul_left ?_ positive
    calc den * (2 * (whole * den')) = 2 * (whole * den) * den' := by ring
      _ ≤ (2 * num + den) * den' := Nat.mul_le_mul_right _ nearest.above
      _ = 2 * (num * den') + den * den' := by ring
      _ = den * (2 * num' + den') := by rw [same]; ring
  · refine Nat.le_of_mul_le_mul_left ?_ positive
    calc den * (2 * num') = 2 * (num' * den) := by ring
      _ = 2 * num * den' := by rw [← same]; ring
      _ ≤ (2 * (whole * den) + den) * den' := Nat.mul_le_mul_right _ nearest.below
      _ = den * (2 * (whole * den') + den') := by ring

/--
Rounding to fifty-three bits does not reach the next whole number when the dividend has no more of
them.
-/
theorem Nearest.div_eq {rounded dividend divisor places : Nat} (positive : 0 < divisor)
    (nearest : Nearest rounded (dividend * 2 ^ places) divisor) (short : dividend < 2 ^ 53)
    (enough : divisor * 2 ^ 52 ≤ dividend * 2 ^ places) :
    rounded / 2 ^ places = dividend / divisor := by
  -- Neither whole number beside the quotient is reached by half a step.
  have whole : dividend / divisor * divisor ≤ dividend := Nat.div_mul_le_self dividend divisor
  have next : dividend + 1 ≤ (dividend / divisor + 1) * divisor :=
    Nat.lt_mul_of_div_lt (Nat.lt_succ_self _) positive
  refine Nat.div_eq_of_lt_le (Nat.le_of_not_lt fun below => ?_) (Nat.lt_of_not_le fun above => ?_)
  · -- The whole part is a number that the rounding could have taken, and is no nearer to it.
    have gap : (rounded + 1) * divisor ≤ dividend * 2 ^ places := by
      calc (rounded + 1) * divisor ≤ dividend / divisor * 2 ^ places * divisor :=
            Nat.mul_le_mul_right _ below
        _ = dividend / divisor * divisor * 2 ^ places := Nat.mul_right_comm _ _ _
        _ ≤ dividend * 2 ^ places := Nat.mul_le_mul_right _ whole
    rw [Nat.succ_mul] at gap
    have low := nearest.below
    omega
  · -- The next whole number is away by one part in the divisor, which is more than is rounded.
    have gap : (dividend + 1) * 2 ^ places ≤ rounded * divisor := by
      calc (dividend + 1) * 2 ^ places ≤ (dividend / divisor + 1) * divisor * 2 ^ places :=
            Nat.mul_le_mul_right _ next
        _ = (dividend / divisor + 1) * 2 ^ places * divisor := Nat.mul_right_comm _ _ _
        _ ≤ rounded * divisor := Nat.mul_le_mul_right _ above
    have few : dividend * 2 ^ places < 2 ^ 53 * 2 ^ places :=
      Nat.mul_lt_mul_of_pos_right short (Nat.two_pow_pos places)
    rw [Nat.succ_mul] at gap
    have high := nearest.above
    omega

/-- Two whole numbers are in the proportion of their mantissas, shifted by their exponents. -/
theorem proportional {dividend divisor mantissa mantissa' places extra : Nat}
    {exponent exponent' : Int} (upper : Whole mantissa exponent dividend)
    (lower : Whole mantissa' exponent' divisor)
    (scale : (places : Int) = exponent' - exponent + 53 - extra) :
    mantissa <<< 53 * divisor = dividend * 2 ^ places * (mantissa' * 2 ^ extra) := by
  -- Each operand is its mantissa shifted by its exponent, up or down.
  obtain ⟨up, down, shape, holds⟩ := upper.holds
  obtain ⟨up', down', shape', holds'⟩ := lower.holds
  have exponents : 53 + up' + down = places + extra + (up + down') := by omega
  -- Scaling by the places shifted down leaves whole numbers on both sides.
  refine Nat.eq_of_mul_eq_mul_right (Nat.two_pow_pos (up + down')) ?_
  calc mantissa <<< 53 * divisor * 2 ^ (up + down')
      = mantissa * 2 ^ up * (divisor * 2 ^ down') * 2 ^ 53 := by
        rw [Nat.shiftLeft_eq, Nat.pow_add]
        ring
    _ = dividend * mantissa' * 2 ^ (53 + up' + down) := by
        rw [holds, ← holds', Nat.pow_add, Nat.pow_add]
        ring
    _ = dividend * 2 ^ places * (mantissa' * 2 ^ extra) * 2 ^ (up + down') := by
        rw [exponents, Nat.pow_add, Nat.pow_add]
        ring

/-- A whole number of at most fifty-three bits has all its places after the point. -/
theorem Whole.exponent_nonpos {mantissa value : Nat} {exponent : Int}
    (whole : Whole mantissa exponent value) (short : value < 2 ^ 53) : exponent ≤ 0 := by
  -- The exponent shifts the mantissa up or down.
  obtain ⟨up, down, shape, holds⟩ := whole.holds
  have least := (log2_eq_iff.mp whole.full).1
  -- A mantissa of full length leaves no room for a power of two.
  have less : 2 ^ 52 * 2 ^ up < 2 ^ 52 * 2 ^ (down + 1) := by
    calc 2 ^ 52 * 2 ^ up ≤ mantissa * 2 ^ up := Nat.mul_le_mul_right _ least
      _ = value * 2 ^ down := holds
      _ < 2 ^ 53 * 2 ^ down := Nat.mul_lt_mul_of_pos_right short (Nat.two_pow_pos down)
      _ = 2 ^ 52 * 2 ^ (down + 1) := by rw [Nat.pow_succ 2 down]; ring
  have order := (Nat.pow_lt_pow_iff_right (by decide)).mp (Nat.lt_of_mul_lt_mul_left less)
  omega

/--
The quotient of two mantissas of full length is a number with the quotient of their signs, whose
mantissa is nearest to the exact one.
-/
theorem unpack_div {mantissa mantissa' : Nat} {exponent exponent' : Int} (sign sign' : Sign)
    (pos : 0 < mantissa) (pos' : 0 < mantissa') (full : mantissa.log2 = 52)
    (full' : mantissa'.log2 = 52) (small : exponent ≤ 48) (large : -52 ≤ exponent)
    (small' : exponent' ≤ 48) (large' : -52 ≤ exponent') :
    ∃ (rounded extra carry : Nat) (nonzero : 0 < rounded),
      (Float.Model.pack (UnpackedFloat.div .binary64 (.finite sign mantissa exponent pos)
        (.finite sign' mantissa' exponent' pos'))).unpack =
          .finite (sign / sign') rounded (exponent - exponent' - 53 + extra + carry) nonzero ∧
      extra ≤ 1 ∧ 2 ^ 52 ≤ mantissa <<< 53 / (mantissa' * 2 ^ extra) ∧
      Nearest (rounded * 2 ^ carry) (mantissa <<< 53) (mantissa' * 2 ^ extra) := by
  -- Both mantissas are of full length, so their quotient has fifty-three bits or one more.
  obtain ⟨least, most⟩ := log2_eq_iff.mp full
  obtain ⟨least', most'⟩ := log2_eq_iff.mp full'
  have core : divCore .binary64 mantissa exponent mantissa' exponent' =
      (mantissa <<< 53 / mantissa', exponent - exponent' - 53,
        accuracyOfFraction (mantissa <<< 53 % mantissa') mantissa') := by
    have target : min (exponent - exponent') (Format.binary64.targetExponent
        (totalExponent mantissa exponent - totalExponent mantissa' exponent')) =
          exponent - exponent' - 53 := by
      simp only [Format.targetExponent, totalExponent, full, full', Format.mantissaBits,
        Format.minExponent]
      omega
    have amount : (exponent - exponent' - (exponent - exponent' - 53)).toNat = 53 := by omega
    simp only [divCore, target, amount]
  have stands := stands_ofFraction (mantissa <<< 53) mantissa' pos'
  -- The quotient of the mantissas has one or two bits more than are kept.
  have long : 2 ^ 52 ≤ mantissa <<< 53 / mantissa' := by
    rw [Nat.le_div_iff_mul_le pos', Nat.shiftLeft_eq]
    omega
  have bounded : mantissa <<< 53 / mantissa' < 2 ^ 54 := by
    rw [Nat.div_lt_iff_lt_mul pos', Nat.shiftLeft_eq]
    omega
  have enough : 52 ≤ (mantissa <<< 53 / mantissa').log2 := (Nat.le_log2 (by omega)).mpr long
  have few : (mantissa <<< 53 / mantissa').log2 < 54 := (Nat.log2_lt (by omega)).mpr bounded
  have normal : -1074 ≤ exponent - exponent' - 53 := by omega
  obtain ⟨rounded, carry, nonzero, rounds, place, once, nearest⟩ :=
    roundWithAccuracy_normal (sign / sign') stands pos' enough normal
  refine ⟨rounded, (mantissa <<< 53 / mantissa').log2 - 52, carry, nonzero, ?_, by omega,
    (bits_of_shifted stands enough).1, nearest⟩
  have divides : UnpackedFloat.div .binary64 (.finite sign mantissa exponent pos)
      (.finite sign' mantissa' exponent' pos') = .finite (sign / sign') rounded
        (exponent - exponent' - (53 : Int) + ((mantissa <<< 53 / mantissa').log2 - 52 : Nat) + carry)
        nonzero := by
    rw [← rounds]
    simp only [UnpackedFloat.div, core]
  rw [divides, unpack_pack _ nonzero place (by omega) (by omega)]

/--
A number whose mantissa is nearest to a quotient is truncated to the whole part of the quotient, when
the dividend has at most fifty-three bits.
-/
theorem roundToInt_div {dividend divisor mantissa mantissa' rounded extra carry : Nat}
    {exponent exponent' : Int} (sign : Sign) (upper : Whole mantissa exponent dividend)
    (lower : Whole mantissa' exponent' divisor) (positive : 0 < divisor)
    (short : dividend < 2 ^ 53) (large' : -52 ≤ exponent') (once : extra ≤ 1)
    (enough : 2 ^ 52 ≤ mantissa <<< 53 / (mantissa' * 2 ^ extra))
    (nearest : Nearest (rounded * 2 ^ carry) (mantissa <<< 53) (mantissa' * 2 ^ extra)) :
    roundToInt sign rounded (exponent - exponent' - 53 + extra + carry) =
      sign.apply (dividend / divisor : Nat) := by
  -- The quotient has bits after the point, which truncation drops.
  have small := upper.exponent_nonpos short
  obtain ⟨places, scale⟩ : ∃ places : Nat, (places : Int) = exponent' - exponent + 53 - extra :=
    ⟨(exponent' - exponent + 53 - extra).toNat, by omega⟩
  -- The mantissas are in the proportion of the numbers, up to the places after the point.
  have same : mantissa <<< 53 * divisor = dividend * 2 ^ places * (mantissa' * 2 ^ extra) :=
    proportional upper lower (by omega)
  have least' := (log2_eq_iff.mp lower.full).1
  have positive' : 0 < mantissa' * 2 ^ extra :=
    Nat.mul_pos (by omega) (Nat.two_pow_pos extra)
  have enough' : divisor * 2 ^ 52 ≤ dividend * 2 ^ places := by
    refine Nat.le_of_mul_le_mul_right ?_ positive'
    rw [← same]
    calc divisor * 2 ^ 52 * (mantissa' * 2 ^ extra)
        = 2 ^ 52 * (mantissa' * 2 ^ extra) * divisor := by ring
      _ ≤ mantissa <<< 53 * divisor :=
        Nat.mul_le_mul_right _ ((Nat.le_div_iff_mul_le positive').mp enough)
  rw [show exponent - exponent' - 53 + extra + carry = (carry : Int) - places by omega,
    roundToInt_eq, (nearest.congr positive' same).div_eq positive short enough']

/-- The sign of a number that is not zero. -/
def signOf (number : Int) : Sign := if number < 0 then .negative else .positive

/-- A number that is not zero is rounded to its magnitude and keeps its sign. -/
theorem unpack_ofInt {number : Int} (nonzero : number ≠ 0) :
    (Float.Model.ofInt number).unpack =
      (Float.Model.pack (UnpackedFloat.round .binary64 (signOf number) number.natAbs 0)).unpack := by
  unfold Float.Model.ofInt UnpackedFloat.ofInt UnpackedFloat.normalize signOf
  -- The sign is taken off before rounding and put back after it.
  rcases Int.lt_or_gt_of_ne nonzero with negative | positive
  · rw [Int.compare_eq_lt.mpr negative, if_pos negative,
      show (-number).toNat = number.natAbs by omega]
  · rw [Int.compare_eq_gt.mpr positive, if_neg (by omega),
      show number.toNat = number.natAbs by omega]

/-- A number is its magnitude with its sign. -/
theorem apply_signOf (number : Int) : (signOf number).apply number.natAbs = number := by
  -- A negative number is the negation of its magnitude.
  unfold signOf
  split
  · show -(number.natAbs : Int) = number
    omega
  · show (number.natAbs : Int) = number
    omega

/-- A quotient of signs is positive when the signs are the same. -/
theorem apply_signOf_div (number number' : Int) (magnitude : Nat) :
    (signOf number / signOf number').apply magnitude =
      if number < 0 ↔ number' < 0 then (magnitude : Int) else -magnitude := by
  -- Equal signs divide to a positive one.
  unfold signOf
  split
  · split
    · rw [if_pos (by omega)]
      rfl
    · rw [if_neg (by omega)]
      rfl
  · split
    · rw [if_neg (by omega)]
      rfl
    · rw [if_pos (by omega)]
      rfl

/-- Truncation toward zero divides the signs, and the magnitudes. -/
theorem apply_div (sign sign' : Sign) (dividend divisor : Nat) :
    (sign / sign').apply (dividend / divisor : Nat) =
      (sign.apply dividend).tdiv (sign'.apply divisor) := by
  -- Truncated division divides the magnitudes and combines the signs.
  cases sign with
  | positive =>
    cases sign' with
    | positive => exact Int.ofNat_tdiv dividend divisor
    | negative =>
      show -((dividend / divisor : Nat) : Int) = (dividend : Int).tdiv (-divisor)
      rw [Int.tdiv_neg, Int.ofNat_tdiv]
  | negative =>
    cases sign' with
    | positive =>
      show -((dividend / divisor : Nat) : Int) = (-dividend : Int).tdiv divisor
      rw [Int.neg_tdiv, Int.ofNat_tdiv]
    | negative =>
      show ((dividend / divisor : Nat) : Int) = (-dividend : Int).tdiv (-divisor)
      rw [Int.neg_tdiv, Int.tdiv_neg, Int.neg_neg, Int.ofNat_tdiv]

/-- A number that is not zero is itself in binary64, or a long number is another one as long. -/
theorem unpack_ofInt_whole {number : Int} (bounded : number.natAbs < 2 ^ 100)
    (nonzero : number ≠ 0) :
    ∃ (mantissa : Nat) (exponent : Int) (pos : 0 < mantissa) (value : Nat),
      (Float.Model.ofInt number).unpack = .finite (signOf number) mantissa exponent pos ∧
      Whole mantissa exponent value ∧ -52 ≤ exponent ∧ exponent ≤ 48 ∧
      (value = number.natAbs ∨ 2 ^ 53 ≤ number.natAbs ∧ 2 ^ 53 ≤ value) := by
  rw [unpack_ofInt nonzero]
  -- Below 2 ^ 53 the number itself is kept, and from there on a number as long.
  rcases Nat.lt_or_ge number.natAbs (2 ^ 53) with few | many
  · obtain ⟨mantissa, exponent, pos, reads, whole, large, small⟩ :=
      unpack_round_short (signOf number) (by omega) few
    exact ⟨mantissa, exponent, pos, number.natAbs, reads, whole, large, by omega, Or.inl rfl⟩
  · obtain ⟨mantissa, exponent, pos, value, reads, whole, large, small, long⟩ :=
      unpack_round_long (signOf number) many bounded
    exact ⟨mantissa, exponent, pos, value, reads, whole, by omega, small, Or.inr ⟨many, long⟩⟩

/--
The quotient of two numbers in floating point is truncated to a magnitude with the quotient of their
signs, which is exact when the dividend has at most fifty-three bits.
-/
theorem toInt64_div {dividend divisor : Int} (bounded : dividend.natAbs < 2 ^ 100)
    (bounded' : divisor.natAbs < 2 ^ 100) (nonzero : dividend ≠ 0) (nonzero' : divisor ≠ 0) :
    ∃ magnitude : Nat, (Float.Model.ofInt dividend / Float.Model.ofInt divisor).toInt64 =
        Int64.ofIntClamp ((signOf dividend / signOf divisor).apply magnitude) ∧
      (dividend.natAbs < 2 ^ 53 → magnitude = dividend.natAbs / divisor.natAbs) := by
  -- Both operands are unpacked, divided, rounded and cast.
  obtain ⟨mantissa, exponent, pos, value, reads, whole, large, small, same⟩ :=
    unpack_ofInt_whole bounded nonzero
  obtain ⟨mantissa', exponent', pos', value', reads', whole', large', small', same'⟩ :=
    unpack_ofInt_whole bounded' nonzero'
  obtain ⟨rounded, extra, carry, _, divides, once, enough, nearest⟩ :=
    unpack_div (signOf dividend) (signOf divisor) pos pos' whole.full whole'.full small large small'
      large'
  have cast : (Float.Model.ofInt dividend / Float.Model.ofInt divisor).toInt64 =
      Int64.ofIntClamp (roundToInt (signOf dividend / signOf divisor) rounded
        (exponent - exponent' - 53 + extra + carry)) := by
    show (Float.Model.pack (UnpackedFloat.div .binary64 (Float.Model.ofInt dividend).unpack
      (Float.Model.ofInt divisor).unpack)).unpack.toInt64 = _
    rw [reads, reads', divides]
    rfl
  rw [cast]
  by_cases short : dividend.natAbs < 2 ^ 53
  · have itself : value = dividend.natAbs := by omega
    rw [itself] at whole
    rw [roundToInt_div _ whole whole' (by omega) short large' once enough nearest]
    refine ⟨_, rfl, fun _ => ?_⟩
    -- A divisor that is rounded is greater than the dividend, as is what it is rounded to.
    rcases same' with itself' | ⟨long, long'⟩
    · rw [itself']
    · rw [Nat.div_eq_of_lt (by omega), Nat.div_eq_of_lt (by omega)]
  · exact ⟨_, rfl, fun few => absurd few short⟩

/-- Zero is divided into zero by every number but itself. -/
theorem toInt64_zero_div {divisor : Int} (bounded : divisor.natAbs < 2 ^ 100)
    (nonzero : divisor ≠ 0) :
    (Float.Model.ofInt 0 / Float.Model.ofInt divisor).toInt64 = 0 := by
  obtain ⟨mantissa, exponent, pos, value, reads, -⟩ := unpack_ofInt_whole bounded nonzero
  show (Float.Model.pack (UnpackedFloat.div .binary64 (.zero .positive)
    (Float.Model.ofInt divisor).unpack)).unpack.toInt64 = _
  rw [reads]
  -- Zero has no mantissa, and keeps none.
  show (UnpackedFloat.unpack .binary64 (packedZero .binary64 _)).toInt64 = _
  rw [unpack_packedZero]
  rfl

/-- A number over zero is an infinity of its sign, and zero over zero is no number. -/
theorem toInt64_div_zero {dividend : Int} (bounded : dividend.natAbs < 2 ^ 100) :
    (Float.Model.ofInt dividend / Float.Model.ofInt 0).toInt64 =
      if dividend = 0 then 0 else if 0 < dividend then Int64.maxValue else Int64.minValue := by
  show (Float.Model.pack (UnpackedFloat.div .binary64 (Float.Model.ofInt dividend).unpack
    (.zero .positive))).unpack.toInt64 = _
  -- Zero divided by itself is no number, which is cast to 0.
  by_cases none_ : dividend = 0
  · subst none_
    rfl
  · obtain ⟨mantissa, exponent, pos, value, reads, -⟩ :=
      unpack_ofInt_whole bounded none_
    -- Anything else is an infinity of its sign, which the cast saturates.
    rw [if_neg none_, reads]
    show (Float.Model.pack (.infinity (signOf dividend / .positive))).unpack.toInt64 = _
    unfold signOf
    rcases Int.lt_or_gt_of_ne none_ with negative | positive
    · rw [if_pos negative, if_neg (by omega)]
      rfl
    · rw [if_neg (by omega), if_pos positive]
      rfl

end Binary64
