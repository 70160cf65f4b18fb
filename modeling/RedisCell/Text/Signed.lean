import RedisCell.Text.Numeral

/-! Which texts are read as a signed word, and the text that one is written as. -/

namespace RedisCell

/-- What a text may be: decimal digits, which may follow a plus sign, or those after a minus sign. -/
def IsSignedTextOf (text : String) (value : Int64) : Prop :=
  ∃ digits, digits ≠ [] ∧ (∀ digit ∈ digits, digit.isDigit = true) ∧
    ((text.toList = digits ∨ text.toList = '+' :: digits) ∧
        (Nat.ofDigitChars 10 digits 0 : Int) = value.toInt ∨
      text.toList = '-' :: digits ∧ -(Nat.ofDigitChars 10 digits 0 : Int) = value.toInt)

/-- `i64::to_string`: a minus sign for a negative value, and decimal digits without leading zeros. -/
def i64ToString (value : Int64) : String :=
  if value < 0 then String.ofList ('-' :: Nat.toDigits 10 value.toInt.natAbs)
  else String.ofList (Nat.toDigits 10 value.toInt.natAbs)

section Signs

variable {text : String} {digits : List Char} {value : Int64}

/-- A sign is no digit, so no digits start with it. -/
theorem ne_of_digits {sign : Char} {rest : List Char} (notDigit : sign.isDigit = false)
    (all : ∀ digit ∈ digits, digit.isDigit = true) : sign :: rest ≠ digits := by
  -- The sign would have to be a digit.
  rintro rfl
  rw [all sign List.mem_cons_self] at notDigit
  cases notDigit

/-- After a plus sign a text stands for the number of its digits. -/
theorem isSignedTextOf_plus (signed : text.toList = '+' :: digits) :
    IsSignedTextOf text value ↔ digits ≠ [] ∧ (∀ digit ∈ digits, digit.isDigit = true) ∧
      (Nat.ofDigitChars 10 digits 0 : Int) = value.toInt := by
  -- Only the case of a plus sign is left.
  unfold IsSignedTextOf
  rw [signed]
  constructor
  · -- A sign is no digit, so the text is not read as unsigned.
    rintro ⟨others, some_, all, ⟨same | same, number⟩ | ⟨same, _⟩⟩
    · exact absurd same (ne_of_digits rfl all)
    · cases same
      exact ⟨some_, all, number⟩
    · cases same
  · rintro ⟨some_, all, number⟩
    exact ⟨digits, some_, all, Or.inl ⟨Or.inr rfl, number⟩⟩

/-- After a minus sign a text stands for the opposite of the number of its digits. -/
theorem isSignedTextOf_minus (signed : text.toList = '-' :: digits) :
    IsSignedTextOf text value ↔ digits ≠ [] ∧ (∀ digit ∈ digits, digit.isDigit = true) ∧
      -(Nat.ofDigitChars 10 digits 0 : Int) = value.toInt := by
  -- Only the case of a minus sign is left.
  unfold IsSignedTextOf
  rw [signed]
  constructor
  · -- A sign is no digit, so the text is not read as unsigned.
    rintro ⟨others, some_, all, ⟨same | same, _⟩ | ⟨same, number⟩⟩
    · exact absurd same (ne_of_digits rfl all)
    · cases same
    · cases same
      exact ⟨some_, all, number⟩
  · rintro ⟨some_, all, number⟩
    exact ⟨digits, some_, all, Or.inr ⟨rfl, number⟩⟩

/-- Without a sign a text stands for the number of its characters. -/
theorem isSignedTextOf_unsigned (plus : ∀ digits, text.toList ≠ '+' :: digits)
    (minus : ∀ digits, text.toList ≠ '-' :: digits) :
    IsSignedTextOf text value ↔ text.toList ≠ [] ∧
      (∀ digit ∈ text.toList, digit.isDigit = true) ∧
      (Nat.ofDigitChars 10 text.toList 0 : Int) = value.toInt := by
  -- Without a sign the digits are the whole text.
  constructor
  · rintro ⟨digits, some_, all, ⟨same | same, number⟩ | ⟨same, _⟩⟩
    · rw [same]
      exact ⟨some_, all, number⟩
    · exact absurd same (plus digits)
    · exact absurd same (minus digits)
  · rintro ⟨some_, all, number⟩
    exact ⟨text.toList, some_, all, Or.inl ⟨Or.inl rfl, number⟩⟩

end Signs

/-- Reading digits into a signed word yields a value when the signed number is the value. -/
theorem readSigned_eq_ok_iff {limit : Nat} {overflow : IntErrorKind} (signed : Int → Int)
    (range : ∀ size : Nat, size ≤ limit ↔ FitsI64 (signed size)) (digits : List Char)
    (value : Int64) :
    ((fun size => Int64.ofInt (signed size)) <$> do
        let size ← readDigits limit overflow 0 digits
        pure (size : Int)) = Except.ok value ↔
      (∀ digit ∈ digits, digit.isDigit = true) ∧
        signed (Nat.ofDigitChars 10 digits 0) = value.toInt := by
  -- The limit is where the signed number leaves the word, so the cast loses nothing.
  constructor
  · intro read
    cases number : readDigits limit overflow 0 digits with
    | error kind =>
      rw [number] at read
      cases read
    | ok size =>
      rw [number] at read
      cases read
      obtain ⟨all, same, within⟩ := (readDigits_eq_ok_iff (Nat.zero_le _) digits _).mp number
      refine ⟨all, ?_⟩
      rw [same, toInt_ofInt_of_fits ((range size).mp within)]
  · intro reads
    obtain ⟨all, same⟩ := reads
    have within : Nat.ofDigitChars 10 digits 0 ≤ limit := by
      rw [range, same]
      exact fitsI64_toInt value
    rw [(readDigits_eq_ok_iff (Nat.zero_le _) digits _).mpr ⟨all, rfl, within⟩]
    show Except.ok (Int64.ofInt (signed (Nat.ofDigitChars 10 digits 0))) = _
    rw [same, Int64.ofInt_toInt]

/-- Reading digits without a minus sign. -/
theorem readPositive_eq_ok_iff (digits : List Char) (value : Int64) :
    ((fun size => Int64.ofInt size) <$> do
        let size ← readDigits (2 ^ 63 - 1) .posOverflow 0 digits
        pure (size : Int)) = Except.ok value ↔
      (∀ digit ∈ digits, digit.isDigit = true) ∧
        (Nat.ofDigitChars 10 digits 0 : Int) = value.toInt :=
  readSigned_eq_ok_iff id (fun size => by simp only [FitsI64, id]; omega) digits value

/-- Reading digits after a minus sign, which leaves room for one more unit. -/
theorem readNegative_eq_ok_iff (digits : List Char) (value : Int64) :
    ((fun size => Int64.ofInt (-size)) <$> do
        let size ← readDigits (2 ^ 63) .negOverflow 0 digits
        pure (size : Int)) = Except.ok value ↔
      (∀ digit ∈ digits, digit.isDigit = true) ∧
        -(Nat.ofDigitChars 10 digits 0 : Int) = value.toInt :=
  readSigned_eq_ok_iff (fun size => -size) (fun size => by simp only [FitsI64]; omega) digits value

/-- A text is read as a signed word exactly when it stands for it. -/
theorem parseI64_eq_ok_iff (text : String) (value : Int64) :
    parseI64 text = .ok value ↔ IsSignedTextOf text value := by
  -- A text is empty, or has a sign in front, or has none.
  unfold parseI64
  split
  · rename_i empty
    simp [IsSignedTextOf, empty]
  · -- A sign alone is no number.
    rename_i alone
    simp [isSignedTextOf_plus alone]
  · rename_i alone
    simp [isSignedTextOf_minus alone]
  · rename_i digits some_ signed
    rw [isSignedTextOf_plus signed, readPositive_eq_ok_iff, and_iff_right some_]
  · rename_i digits some_ signed
    rw [isSignedTextOf_minus signed, readNegative_eq_ok_iff, and_iff_right some_]
  · rename_i digits nonempty _ _ plus minus
    rw [isSignedTextOf_unsigned (fun digits => plus digits) (fun digits => minus digits),
      readPositive_eq_ok_iff, and_iff_right nonempty]

/-- The text that a signed word is written as stands for it. -/
theorem isSignedTextOf_i64ToString (value : Int64) : IsSignedTextOf (i64ToString value) value := by
  -- The digits are those of the magnitude, and stand for it.
  let digits := Nat.toDigits 10 value.toInt.natAbs
  have all : ∀ digit ∈ digits, digit.isDigit = true := fun digit =>
    Nat.isDigit_of_mem_toDigits (by omega) (by omega)
  have number : Nat.ofDigitChars 10 digits 0 = value.toInt.natAbs := Nat.ofDigitChars_ten_toDigits
  have sign : value < 0 ↔ value.toInt < 0 := Int64.lt_iff_toInt_lt
  refine ⟨digits, Nat.toDigits_ne_nil, all, ?_⟩
  rw [number, i64ToString]
  -- A negative number is written as its sign and the digits of its magnitude.
  split
  · rename_i negative
    refine Or.inr ⟨String.toList_ofList, ?_⟩
    rw [sign] at negative
    omega
  · rename_i nonneg
    refine Or.inl ⟨Or.inl String.toList_ofList, ?_⟩
    rw [sign] at nonneg
    omega

end RedisCell
