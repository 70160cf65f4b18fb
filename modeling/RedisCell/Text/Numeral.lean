import RedisCell.Text.ParseInt

/-! Which texts are read as a machine integer: digits of it, after at most one sign. -/

namespace RedisCell

/-- A text stands for a value: it is decimal digits of that value, perhaps after a plus sign. -/
def IsTextOf (text : String) (value : UInt64) : Prop :=
  ∃ digits, digits ≠ [] ∧ (∀ digit ∈ digits, digit.isDigit = true) ∧
    (text.toList = digits ∨ text.toList = '+' :: digits) ∧
    Nat.ofDigitChars 10 digits 0 = value.toNat

/-- Further digits never lower a number. -/
theorem le_ofDigitChars (digits : List Char) (value : Nat) :
    value ≤ Nat.ofDigitChars 10 digits value := by
  -- Each digit multiplies by ten before it adds.
  induction digits generalizing value with
  | nil => simp
  | cons digit rest ih =>
    rw [Nat.ofDigitChars_cons]
    have reached := ih (10 * value + (digit.toNat - '0'.toNat))
    omega

/-- Reading yields the number of its digits, if they are digits and the number is within the limit. -/
theorem readDigits_eq_ok_iff {limit : Nat} {overflow : IntErrorKind} {value : Nat}
    (within : value ≤ limit) (digits : List Char) (number : Nat) :
    readDigits limit overflow value digits = .ok number ↔
      (∀ digit ∈ digits, digit.isDigit = true) ∧
        Nat.ofDigitChars 10 digits value = number ∧ number ≤ limit := by
  -- The value read so far stays within the limit for as long as the reading goes on.
  induction digits generalizing value with
  | nil =>
    simp only [readDigits, Except.ok.injEq, List.not_mem_nil, Nat.ofDigitChars_nil]
    apply Iff.intro
    · intro same
      exact ⟨by simp, same, by omega⟩
    · intro reads
      exact reads.2.1
  | cons digit rest ih =>
    rw [readDigits, Nat.ofDigitChars_cons]
    have zero : '0'.toNat = 48 := rfl
    rw [zero]
    have grown := le_ofDigitChars rest (10 * value + (digit.toNat - 48))
    by_cases isDigit : digit.isDigit = true
    · rw [if_pos isDigit]
      by_cases exceeds : limit < 10 * value + (digit.toNat - 48)
      · -- A number past the limit only grows.
        simp only [if_pos exceeds, reduceCtorEq, false_iff]
        intro reads
        obtain ⟨_, same, bounded⟩ := reads
        omega
      · simp only [if_neg exceeds]
        rw [ih (not_lt.mp exceeds)]
        simp [isDigit]
    · simp only [if_neg isDigit, reduceCtorEq, false_iff]
      intro reads
      exact isDigit (reads.1 digit (by simp))

/-- Reading digits into a word yields a value exactly when the digits are the value's. -/
theorem readWord_eq_ok_iff (digits : List Char) (value : UInt64) :
    UInt64.ofNat <$> readDigits (2 ^ 64 - 1) .posOverflow 0 digits = .ok value ↔
      (∀ digit ∈ digits, digit.isDigit = true) ∧ Nat.ofDigitChars 10 digits 0 = value.toNat := by
  -- The reading stops at the largest word, so the conversion to a word loses nothing.
  have bounded := value.toNat_lt
  apply Iff.intro
  · intro read
    cases number : readDigits (2 ^ 64 - 1) .posOverflow 0 digits with
    | error kind =>
      rw [number] at read
      cases read
    | ok number' =>
      rw [number] at read
      cases read
      obtain ⟨all, same, within⟩ := (readDigits_eq_ok_iff (by omega) digits _).mp number
      refine ⟨all, ?_⟩
      have representable : number' < UInt64.size := Nat.lt_succ_of_le within
      rw [same, UInt64.toNat_ofNat_of_lt' representable]
  · intro reads
    obtain ⟨all, same⟩ := reads
    have read : readDigits (2 ^ 64 - 1) .posOverflow 0 digits = .ok value.toNat :=
      (readDigits_eq_ok_iff (by omega) digits value.toNat).mpr ⟨all, same, by omega⟩
    rw [read]
    show Except.ok (UInt64.ofNat value.toNat) = _
    rw [UInt64.ofNat_toNat]

/-- A text is read as a value exactly when it stands for it. -/
theorem parseU64_eq_ok_iff (text : String) (value : UInt64) :
    parseU64 text = .ok value ↔ IsTextOf text value := by
  -- A sign is no digit, so it stands only in front of the digits that are read.
  have sign : ('+').isDigit = false := rfl
  unfold parseU64 IsTextOf
  split
  · rename_i empty
    simp only [empty, reduceCtorEq, false_iff]
    intro holds
    rcases holds with ⟨digits, nonempty, _, same | same, _⟩
    · exact nonempty same.symm
    · cases same
  · rename_i alone
    simp only [alone, reduceCtorEq, false_iff]
    intro holds
    rcases holds with ⟨digits, nonempty, all, same | same, _⟩
    · have isDigit := all '+' (by simp [← same])
      rw [sign] at isDigit
      cases isDigit
    · exact nonempty (by simpa using same.symm)
  · rename_i digits some_ signed
    rw [readWord_eq_ok_iff, signed]
    constructor
    · intro holds
      obtain ⟨all, same⟩ := holds
      exact ⟨digits, fun none_ => some_ (by rw [none_]), all, Or.inr rfl, same⟩
    · intro holds
      rcases holds with ⟨others, _, all, same | same, number⟩
      · have isDigit := all '+' (by simp [← same])
        rw [sign] at isDigit
        cases isDigit
      · cases same
        exact ⟨all, number⟩
  · rename_i nonempty _ unsigned
    rw [readWord_eq_ok_iff]
    constructor
    · intro holds
      obtain ⟨all, same⟩ := holds
      exact ⟨text.toList, nonempty, all, Or.inl rfl, same⟩
    · intro holds
      rcases holds with ⟨digits, _, all, same | same, number⟩
      · rw [same]
        exact ⟨all, number⟩
      · exact absurd same (unsigned _)

end RedisCell
