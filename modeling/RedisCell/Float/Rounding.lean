import Mathlib

/-! Rounding a fraction to a binary64 number: the nearest mantissa, and its packed form. -/

namespace Binary64

open Float.Model Float.Model.UnpackedFloat

/-- A whole number that no other one is closer to a fraction than. -/
structure Nearest (whole num den : Nat) : Prop where
  above : 2 * (whole * den) ≤ 2 * num + den
  below : 2 * num ≤ 2 * (whole * den) + den

/-- The whole part of a fraction is nearest to it when at most one half is cut off. -/
theorem nearest_floor {num den : Nat} (small : 2 * (num % den) ≤ den) :
    Nearest (num / den) num den := by
  -- The remainder is what the whole part cuts off.
  have whole := Nat.div_add_mod num den
  rw [Nat.mul_comm] at whole
  exact ⟨by omega, by omega⟩

/-- The next whole number is nearest to a fraction when at least one half would be cut off. -/
theorem nearest_succ {num den : Nat} (positive : 0 < den) (large : den ≤ 2 * (num % den)) :
    Nearest (num / den + 1) num den := by
  have whole := Nat.div_add_mod num den
  rw [Nat.mul_comm] at whole
  have next : (num / den + 1) * den = num / den * den + den := Nat.succ_mul _ _
  have rest := Nat.mod_lt num positive
  -- The next whole number is at most half a step above.
  exact ⟨by omega, by omega⟩

/-- The residual bits of a mantissa tell where a fraction lies between it and the next one. -/
structure Stands (em : ExtendedMantissa) (num den : Nat) : Prop where
  mantissa : em.mantissa = num / den
  roundBit : em.roundBit = true ↔ den ≤ 2 * (num % den)
  stickyBit : em.stickyBit = true ↔ num % den ≠ 0 ∧ 2 * (num % den) ≠ den

/-- A quotient with the accuracy of its remainder stands for the fraction. -/
theorem stands_ofFraction (num den : Nat) (positive : 0 < den) :
    Stands (.ofMantissaAndAccuracy (num / den) (accuracyOfFraction (num % den) den)) num den := by
  unfold accuracyOfFraction
  split
  · -- Without a remainder both bits are clear.
    rename_i exact_
    refine ⟨rfl, ?_, ?_⟩ <;> simp [ExtendedMantissa.ofMantissaAndAccuracy] <;> omega
  · rename_i inexact
    -- Otherwise they say on which side of one half the remainder lies.
    rcases order : compare (2 * (num % den)) den with _ | _ | _
    · have less := Nat.compare_eq_lt.mp order
      refine ⟨rfl, ?_, ?_⟩ <;> simp [ExtendedMantissa.ofMantissaAndAccuracy] <;> omega
    · have same := Nat.compare_eq_eq.mp order
      refine ⟨rfl, ?_, ?_⟩ <;> simp [ExtendedMantissa.ofMantissaAndAccuracy] <;> omega
    · have more := Nat.compare_eq_gt.mp order
      refine ⟨rfl, ?_, ?_⟩ <;> simp [ExtendedMantissa.ofMantissaAndAccuracy] <;> omega

/-- A mantissa without residual bits stands for itself. -/
theorem stands_exact (num : Nat) : Stands (.ofMantissaAndAccuracy num .exact) num 1 :=
  -- Nothing is left over when dividing by one.
  ⟨(Nat.div_one num).symm, by simp [ExtendedMantissa.ofMantissaAndAccuracy, Nat.mod_one],
    by simp [ExtendedMantissa.ofMantissaAndAccuracy, Nat.mod_one]⟩

namespace Stands

variable {em : ExtendedMantissa} {num den : Nat}

/-- One shift doubles the denominator. -/
theorem shiftRightOne (stands : Stands em num den) (positive : 0 < den) :
    Stands em.shiftRightOne num (den * 2) := by
  -- The bit that is shifted out joins what has been cut off before.
  have rest : num % (den * 2) = num % den + den * (num / den % 2) := Nat.mod_mul
  have small : num % den < den := Nat.mod_lt num positive
  refine ⟨?_, ?_, ?_⟩
  · rw [ExtendedMantissa.shiftRightOne, stands.mantissa, Nat.div_div_eq_div_mul]
  · -- The bit that is shifted out decides about one half.
    simp only [ExtendedMantissa.shiftRightOne, stands.mantissa, bne_iff_ne]
    rcases Nat.mod_two_eq_zero_or_one (num / den) with even | odd
    · rw [rest, even]
      omega
    · rw [rest, odd]
      omega
  · -- The remainder vanishes together with both residual bits.
    have residual : (em.roundBit || em.stickyBit) = true ↔ num % den ≠ 0 := by
      rw [Bool.or_eq_true, stands.roundBit, stands.stickyBit]
      omega
    rw [ExtendedMantissa.shiftRightOne, residual]
    rcases Nat.mod_two_eq_zero_or_one (num / den) with even | odd
    · rw [rest, even]
      omega
    · rw [rest, odd]
      omega

/-- A shift multiplies the denominator by a power of two. -/
theorem shiftRight (stands : Stands em num den) (positive : 0 < den) (count : Nat) :
    Stands (em >>> count) num (den * 2 ^ count) := by
  -- Each place shifted away doubles the denominator.
  induction count with
  | zero =>
    rw [Nat.pow_zero, Nat.mul_one]
    exact stands
  | succ count ih =>
    have more : 0 < den * 2 ^ count := Nat.mul_pos positive (Nat.two_pow_pos count)
    rw [Nat.pow_succ, ← Nat.mul_assoc]
    exact ih.shiftRightOne more

/-- A rounded mantissa is nearest to the fraction, and at least its whole part. -/
theorem rounded (stands : Stands em num den) (positive : 0 < den) :
    Nearest em.roundedMantissa num den ∧ num / den ≤ em.roundedMantissa ∧
      em.roundedMantissa ≤ num / den + 1 := by
  -- The two bits say on which side of one half the cut lies.
  obtain ⟨mantissa, roundBit, stickyBit⟩ := em
  have same : mantissa = num / den := stands.mantissa
  have round := stands.roundBit
  have sticky := stands.stickyBit
  -- The round bit alone decides, unless two mantissas are equally near.
  have stays : 2 * (num % den) ≤ den → Nearest mantissa num den := same ▸ nearest_floor
  have moves : den ≤ 2 * (num % den) → Nearest (mantissa + 1) num den := same ▸ nearest_succ positive
  rw [← same]
  cases roundBit <;> cases stickyBit <;>
    simp only [ExtendedMantissa.roundedMantissa, ExtendedMantissa.accuracy,
      Accuracy.roundToNearestEven] <;> simp at round sticky
  · exact ⟨stays (by omega), Nat.le_refl _, Nat.le_succ _⟩
  · exact ⟨stays (by omega), Nat.le_refl _, Nat.le_succ _⟩
  · -- Of these the even one is taken.
    rcases Nat.mod_two_eq_zero_or_one mantissa with even | odd
    · rw [even]
      exact ⟨stays (by omega), Nat.le_refl _, Nat.le_succ _⟩
    · rw [odd]
      exact ⟨moves (by omega), Nat.le_succ _, Nat.le_refl _⟩
  · exact ⟨moves (by omega), Nat.le_succ _, Nat.le_refl _⟩

end Stands

/-- A mantissa of full length has fifty-three bits. -/
theorem log2_eq_iff {mantissa : Nat} :
    mantissa.log2 = 52 ↔ 2 ^ 52 ≤ mantissa ∧ mantissa < 2 ^ 53 := by
  -- Zero has no leading bit, and is treated apart.
  rcases Nat.eq_zero_or_pos mantissa with rfl | positive
  · simp
  · exact Nat.log2_eq_iff (by omega)

/-- A mantissa of full length keeps its exponent. -/
theorem shiftToTargetExponent_normal {mantissa : Nat} {exponent : Int}
    (full : 52 ≤ mantissa.log2) (normal : -1074 ≤ exponent) (accuracy : Accuracy) :
    shiftToTargetExponent .binary64 mantissa exponent accuracy =
      (ExtendedMantissa.ofMantissaAndAccuracy mantissa accuracy >>> (mantissa.log2 - 52),
        exponent + (mantissa.log2 - 52 : Nat)) := by
  -- A normal number is shifted until 53 bits are left.
  have amount : (Format.binary64.targetExponent (totalExponent mantissa exponent) -
      exponent).toNat = mantissa.log2 - 52 := by
    simp only [Format.targetExponent, totalExponent, Format.mantissaBits, Format.minExponent]
    omega
  simp only [shiftToTargetExponent, shiftToExponent, amount]

/-- What is left of a long mantissa has fifty-three bits. -/
theorem bits_of_shifted {mantissa num den : Nat} {accuracy : Accuracy}
    (stands : Stands (.ofMantissaAndAccuracy mantissa accuracy) num den)
    (full : 52 ≤ mantissa.log2) :
    2 ^ 52 ≤ num / (den * 2 ^ (mantissa.log2 - 52)) ∧
      num / (den * 2 ^ (mantissa.log2 - 52)) < 2 ^ 53 := by
  -- The mantissa is the whole part of the fraction.
  have whole : mantissa = num / den := by
    rw [← stands.mantissa]
    rcases accuracy with _ | _ | _ | _ <;> rfl
  have nonzero : mantissa ≠ 0 := by
    rintro rfl
    simp at full
  -- Shifting it divides both bounds of its leading bit.
  rw [← Nat.div_div_eq_div_mul, ← whole]
  have bounds := (Nat.log2_eq_iff nonzero).mp rfl
  constructor
  · rw [Nat.le_div_iff_mul_le (Nat.two_pow_pos _), ← Nat.pow_add, Nat.add_sub_cancel' full]
    exact bounds.1
  · rw [Nat.div_lt_iff_lt_mul (Nat.two_pow_pos _), ← Nat.pow_add,
      show 53 + (mantissa.log2 - 52) = mantissa.log2 + 1 by omega]
    exact bounds.2

/--
A mantissa that has enough bits is rounded to one of full length, which is nearest to the fraction
that it stands for.
-/
theorem roundWithAccuracy_normal {mantissa num den : Nat} {exponent : Int} {accuracy : Accuracy}
    (sign : Sign) (stands : Stands (.ofMantissaAndAccuracy mantissa accuracy) num den)
    (positive : 0 < den) (full : 52 ≤ mantissa.log2) (normal : -1074 ≤ exponent) :
    ∃ (rounded carry : Nat) (pos : 0 < rounded),
      roundWithAccuracy .binary64 sign mantissa exponent accuracy =
        .finite sign rounded (exponent + (mantissa.log2 - 52 : Nat) + carry) pos ∧
      rounded.log2 = 52 ∧ carry ≤ 1 ∧
      Nearest (rounded * 2 ^ carry) num (den * 2 ^ (mantissa.log2 - 52)) := by
  -- The mantissa is cut to fifty-three bits, rounded, and may carry into one more.
  have cut := stands.shiftRight positive (mantissa.log2 - 52)
  obtain ⟨nearest, least, most⟩ :=
    cut.rounded (Nat.mul_pos positive (Nat.two_pow_pos (mantissa.log2 - 52)))
  have bits := bits_of_shifted stands full
  unfold roundWithAccuracy
  rw [shiftToTargetExponent_normal full normal accuracy]
  generalize ExtendedMantissa.ofMantissaAndAccuracy mantissa accuracy >>> (mantissa.log2 - 52) = em
    at cut nearest least most ⊢
  simp only
  -- Rounding may carry into a bit too many, which is then zero and shifted out.
  have long : 2 ^ 52 ≤ em.roundedMantissa := by omega
  have short : em.roundedMantissa ≤ 2 ^ 53 := by omega
  have full' : 52 ≤ em.roundedMantissa.log2 := (Nat.le_log2 (by omega)).mpr long
  rw [shiftToTargetExponent_normal full' (by omega) .exact]
  have final := (stands_exact em.roundedMantissa).shiftRight Nat.one_pos
    (em.roundedMantissa.log2 - 52)
  have mantissa' := final.mantissa
  rw [Nat.one_mul] at mantissa'
  simp only [mantissa']
  rcases Nat.lt_or_eq_of_le short with less | same
  · have exact_ : em.roundedMantissa.log2 = 52 := log2_eq_iff.mpr ⟨long, less⟩
    refine ⟨em.roundedMantissa, 0, by omega, ?_, exact_, Nat.zero_le 1, by simpa using nearest⟩
    simp only [exact_, Nat.sub_self, Nat.pow_zero, Nat.div_one]
    rw [dif_neg (by omega)]
  · rw [same] at nearest
    refine ⟨2 ^ 52, 1, by decide, ?_, Nat.log2_two_pow, Nat.le_refl 1, nearest⟩
    simp only [same]
    rfl

/-- The leading bit that is left out of a packed mantissa is put back before it. -/
theorem append_one {mantissa : Nat} (full : mantissa.log2 = 52) :
    (1#1 ++ BitVec.ofNat 52 mantissa).toNat = mantissa := by
  obtain ⟨least, most⟩ := log2_eq_iff.mp full
  -- The hidden bit stands for 2 ^ 52.
  rw [BitVec.toNat_append, ← Nat.shiftLeft_add_eq_or_of_lt (BitVec.isLt _)]
  simp only [BitVec.toNat_ofNat, Nat.shiftLeft_eq]
  omega

/-- A number of full length is packed without loss. -/
theorem unpack_pack {mantissa : Nat} {exponent : Int} (sign : Sign) (pos : 0 < mantissa)
    (full : mantissa.log2 = 52) (small : -1074 ≤ exponent) (large : exponent ≤ 971) :
    (Float.Model.pack (.finite sign mantissa exponent pos)).unpack =
      .finite sign mantissa exponent pos := by
  -- The biased exponent is neither of the two reserved ones.
  have biased : ∃ biased : Nat, biased = exponent + 1075 ∧ 0 < biased ∧ biased < 2047 :=
    ⟨(exponent + 1075).toNat, by omega, by omega, by omega⟩
  obtain ⟨biased, same, positive, bounded⟩ := biased
  -- Packing a normal number writes its three components side by side.
  have packed : UnpackedFloat.pack .binary64 (.finite sign mantissa exponent pos) =
      packComponents .binary64 sign (BitVec.ofNat 11 biased) (BitVec.ofNat 52 mantissa) := by
    have value : (exponent + (Format.binary64.exponentBias : Int) + (52 : Nat)).toNat = biased := by
      simp only [Format.exponentBias]
      omega
    simp only [UnpackedFloat.pack, value, full, Format.mantissaBits]
    rw [if_neg (by omega), if_pos trivial]
  have unpacked : (Float.Model.pack (.finite sign mantissa exponent pos)).unpack =
      UnpackedFloat.unpack .binary64
        (packComponents .binary64 sign (BitVec.ofNat 11 biased) (BitVec.ofNat 52 mantissa)) := by
    rw [← packed]
    rfl
  have count : (BitVec.ofNat 11 biased).toNat = biased := by
    rw [BitVec.toNat_ofNat]
    omega
  have infinite : BitVec.ofNat 11 biased ≠ -1#11 := fun same => by
    have := congrArg BitVec.toNat same
    rw [count] at this
    simp at this
    omega
  have subnormal : BitVec.ofNat 11 biased ≠ 0#11 := fun same => by
    have := congrArg BitVec.toNat same
    rw [count] at this
    simp at this
    omega
  -- Reading them back finds each where it was written.
  rw [unpacked, UnpackedFloat.unpack]
  simp only [unpackMantissa_packComponents, unpackExponent_packComponents,
    unpackSign_packComponents, Sign.ofBitVec_toBitVec]
  rw [if_neg infinite, if_neg subnormal]
  have whole := append_one full
  have exponent' : (biased : Int) - ((Format.binary64.exponentBias : Int) + (52 : Nat)) =
      exponent := by
    simp only [Format.exponentBias]
    omega
  simp only [whole, count, exponent']

end Binary64
