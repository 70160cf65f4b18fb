import RedisCell.Machine

/-! Decimal text of machine integers, as `str::parse` reads it and `to_string` writes it. -/

namespace RedisCell

/-- Why a text is not an integer of the requested width. -/
inductive IntErrorKind where
  /-- The text has no characters. -/
  | empty
  /-- A character is not a digit, or a sign has nothing after it. -/
  | invalidDigit
  /-- The value lies above the width's range. -/
  | posOverflow
  /-- The value lies below the width's range. -/
  | negOverflow
  deriving DecidableEq, Repr

/-- The message `ParseIntError` displays. -/
def IntErrorKind.display : IntErrorKind → String
  | .empty => "cannot parse integer from empty string"
  | .invalidDigit => "invalid digit found in string"
  | .posOverflow => "number too large to fit in target type"
  | .negOverflow => "number too small to fit in target type"

/-- Read digits from the left, stopping at the first bad character or the first value past the limit. -/
def readDigits (limit : Nat) (overflow : IntErrorKind) (value : Nat) :
    List Char → Except IntErrorKind Nat
  | [] => .ok value
  | digit :: rest =>
    -- A character is checked before the value it would contribute.
    if digit.isDigit then
      let next := 10 * value + (digit.toNat - 48)
      if limit < next then .error overflow else readDigits limit overflow next rest
    else .error .invalidDigit

/-- `str::parse::<u64>`: digits after an optional plus sign. -/
def parseU64 (text : String) : Except IntErrorKind UInt64 :=
  match text.toList with
  | [] => .error .empty
  | ['+'] => .error .invalidDigit
  | '+' :: digits => UInt64.ofNat <$> readDigits (2 ^ 64 - 1) .posOverflow 0 digits
  -- A minus sign is left among the digits, where it is refused.
  | digits => UInt64.ofNat <$> readDigits (2 ^ 64 - 1) .posOverflow 0 digits

/-- `str::parse::<i64>`: digits after an optional sign. -/
def parseI64 (text : String) : Except IntErrorKind Int64 :=
  match text.toList with
  | [] => .error .empty
  | ['+'] => .error .invalidDigit
  | ['-'] => .error .invalidDigit
  | '+' :: digits => (fun size => Int64.ofInt size) <$> readDigits (2 ^ 63 - 1) .posOverflow 0 digits
  -- The most negative word has one more unit of magnitude than the most positive one.
  | '-' :: digits => (fun size => Int64.ofInt (-size)) <$> readDigits (2 ^ 63) .negOverflow 0 digits
  | digits => (fun size => Int64.ofInt size) <$> readDigits (2 ^ 63 - 1) .posOverflow 0 digits

/-- `u64::to_string`: decimal digits without leading zeros. -/
def u64ToString (value : UInt64) : String := value.toNat.repr

/-- Reading digits in two parts continues from the value of the first part. -/
theorem readDigits_append (limit : Nat) (overflow : IntErrorKind) (value : Nat)
    (first second : List Char) :
    readDigits limit overflow value (first ++ second) =
      readDigits limit overflow value first >>= fun next =>
        readDigits limit overflow next second := by
  -- A refusal in the first part refuses the whole text before the second part is reached.
  induction first generalizing value with
  | nil => rfl
  | cons digit rest ih =>
    simp only [List.cons_append, readDigits]
    split
    · split
      · rfl
      · exact ih _
    · rfl

/-- The decimal digits of a number within the limit read back as that number. -/
theorem readDigits_toDigits {limit : Nat} (overflow : IntErrorKind) (number : Nat)
    (within : number ≤ limit) :
    readDigits limit overflow 0 (Nat.toDigits 10 number) = .ok number := by
  -- The last digit is read after the number formed by all the digits before it.
  induction number using Nat.strong_induction_on with
  | _ number ih =>
    by_cases single : number < 10
    · rw [Nat.toDigits_of_lt_base single]
      simp [readDigits, Nat.isDigit_digitChar, Nat.toNat_digitChar_of_lt_ten single, single,
        Nat.not_lt.mpr within]
    · have small : number % 10 < 10 := Nat.mod_lt _ (by omega)
      rw [Nat.toDigits_of_base_le (by omega) (by omega), readDigits_append,
        ih (number / 10) (by omega) (by omega)]
      have whole : 10 * (number / 10) + number % 10 = number := by omega
      simp [readDigits, Nat.isDigit_digitChar, Nat.toNat_digitChar_of_lt_ten small, small,
        whole, Nat.not_lt.mpr within, Bind.bind, Except.bind]

/-- The first digit of a number is not a sign. -/
theorem toDigits_head (number : Nat) :
    ∃ digit rest, Nat.toDigits 10 number = digit :: rest ∧ digit ≠ '+' ∧ digit ≠ '-' := by
  -- Digits are never empty, and removing the last digit leaves the first one in place.
  induction number using Nat.strong_induction_on with
  | _ number ih =>
    by_cases single : number < 10
    · refine ⟨_, _, Nat.toDigits_of_lt_base single, ?_, ?_⟩ <;>
        exact Nat.digitChar_ne _ (by decide)
    · obtain ⟨digit, rest, head, plus, minus⟩ := ih (number / 10) (by omega)
      rw [Nat.toDigits_of_base_le (by omega) (by omega), head]
      exact ⟨digit, _, rfl, plus, minus⟩

/-- The text of a stored value reads back as that value. -/
theorem parseU64_u64ToString (value : UInt64) : parseU64 (u64ToString value) = .ok value := by
  -- The text starts with a digit, so the signed cases do not apply.
  obtain ⟨digit, rest, head, plus, _⟩ := toDigits_head value.toNat
  have bounded : value.toNat ≤ 2 ^ 64 - 1 := by have := value.toNat_lt; omega
  have read := readDigits_toDigits .posOverflow value.toNat bounded
  simp only [parseU64, u64ToString, Nat.toList_repr]
  rw [head] at read ⊢
  split
  · contradiction
  · simp_all
  · simp_all
  · rw [read]
    simp [Functor.map, Except.map]

end RedisCell
