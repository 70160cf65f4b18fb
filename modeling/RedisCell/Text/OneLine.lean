import RedisCell.Error

/-! Messages of one line, as an error reply carries them. -/

namespace RedisCell

/-- A text without line breaks. -/
def OneLine (text : String) : Prop := ∀ letter ∈ text.toList, letter ≠ '\n' ∧ letter ≠ '\r'

instance decidableOneLine (text : String) : Decidable (OneLine text) :=
  List.decidableBAll (fun letter => letter ≠ '\n' ∧ letter ≠ '\r') text.toList

/-- Two texts of one line make one line. -/
theorem OneLine.append {first second : String} (one : OneLine first) (two : OneLine second) :
    OneLine (first ++ second) := by
  -- Every letter stands in one of the two.
  intro letter member
  rw [String.toList_append] at member
  rcases List.mem_append.mp member with here | there
  · exact one letter here
  · exact two letter there

/-- A number is written on one line. -/
theorem oneLine_repr (number : Nat) : OneLine number.repr := by
  -- A number is written in decimal digits.
  intro letter member
  rw [Nat.toList_repr] at member
  have digit : letter.isDigit = true := Nat.isDigit_of_mem_toDigits (by omega) (by omega) member
  -- Neither line break is a digit.
  refine ⟨?_, ?_⟩ <;> rintro rfl <;> cases digit

/-- Why a text is no integer is told in one line. -/
theorem IntErrorKind.oneLine_display (kind : IntErrorKind) : OneLine kind.display := by
  cases kind <;> decide

/-- Where bytes are no text is told in one line. -/
theorem Utf8Error.oneLine_display (error : Utf8Error) : OneLine error.display := by
  unfold display
  -- Both texts are fixed words around numbers.
  split
  · refine OneLine.append (OneLine.append (OneLine.append ?_ (oneLine_repr _)) ?_) (oneLine_repr _)
    · decide
    · decide
  · refine OneLine.append ?_ (oneLine_repr _)
    decide

/-- The errors that the crate describes itself are of one line when their messages are. -/
theorem oneLine_generic {message : String} (line : OneLine message) :
    OneLine (CellError.generic message).display := by
  -- The text before the message has no line break.
  refine OneLine.append ?_ line
  decide

/-- Bytes that are no text make an error of one line, whatever they are. -/
theorem oneLine_of_fromUtf8 {bytes : ByteArray} {error : CellError}
    (refused : fromUtf8 bytes = .error error) : OneLine error.display := by
  -- Decoding fails with the display of an error.
  unfold fromUtf8 at refused
  split at refused
  · cases refused
  · cases refused
    show OneLine (((firstUtf8Error 0 bytes.toList).map Utf8Error.display).getD "")
    -- The error is displayed as the first one in the bytes.
    cases firstUtf8Error 0 bytes.toList with
    | none => decide
    | some error => exact error.oneLine_display

end RedisCell
