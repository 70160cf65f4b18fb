import RedisCell.Text.ParseInt

/-! The errors a command can return, and the messages they display. -/

namespace RedisCell

/-- Where a byte string stops being UTF-8, as `std::str::Utf8Error` records it. -/
structure Utf8Error where
  /-- The bytes before this index are valid UTF-8. -/
  validUpTo : Nat
  /-- The length of the bad sequence, or nothing when the bytes end inside a character. -/
  errorLen : Option Nat
  deriving DecidableEq, Repr

/-- The number of bytes a character takes, read from its first byte. -/
def utf8Width (first : UInt8) : Nat :=
  if first < 0x80 then 1
  else if 0xC2 ≤ first ∧ first ≤ 0xDF then 2
  else if 0xE0 ≤ first ∧ first ≤ 0xEF then 3
  else if 0xF0 ≤ first ∧ first ≤ 0xF4 then 4
  else 0

/-- The second byte of a character, which the first byte may restrict further. -/
def utf8Second (first second : UInt8) : Bool :=
  -- Overlong forms, surrogates, and values past the last code point are excluded here.
  if first = 0xE0 then 0xA0 ≤ second ∧ second ≤ 0xBF
  else if first = 0xED then 0x80 ≤ second ∧ second ≤ 0x9F
  else if first = 0xF0 then 0x90 ≤ second ∧ second ≤ 0xBF
  else if first = 0xF4 then 0x80 ≤ second ∧ second ≤ 0x8F
  else 0x80 ≤ second ∧ second ≤ 0xBF

/-- A byte that continues a character past its second byte. -/
def utf8Continuation (byte : UInt8) : Bool := 0x80 ≤ byte ∧ byte ≤ 0xBF

/-- The first place from an index on where bytes are not UTF-8. -/
def firstUtf8Error (index : Nat) : List UInt8 → Option Utf8Error
  | [] => none
  | first :: rest =>
    -- The first byte decides how many more belong to its character.
    match utf8Width first, rest with
    | 0, _ => some ⟨index, some 1⟩
    | 1, rest => firstUtf8Error (index + 1) rest
    | _, [] => some ⟨index, none⟩
    | width, second :: rest =>
      if !utf8Second first second then some ⟨index, some 1⟩
      else if width = 2 then firstUtf8Error (index + 2) rest
      else match rest with
        | [] => some ⟨index, none⟩
        | third :: rest =>
          if !utf8Continuation third then some ⟨index, some 2⟩
          else if width = 3 then firstUtf8Error (index + 3) rest
          else match rest with
            | [] => some ⟨index, none⟩
            | fourth :: rest =>
              if !utf8Continuation fourth then some ⟨index, some 3⟩
              else firstUtf8Error (index + 4) rest

/-- The message `Utf8Error` displays. -/
def Utf8Error.display (error : Utf8Error) : String :=
  match error.errorLen with
  | some length => "invalid utf-8 sequence of " ++ length.repr ++ " bytes from index "
      ++ error.validUpTo.repr
  | none => "incomplete utf-8 byte sequence from index " ++ error.validUpTo.repr

/-- Bytes are compared by the instance they come with, whatever else is imported. -/
instance decidableEqBytes : DecidableEq ByteArray := ByteArray.instDecidableEq

/-- Everything that can go wrong in a command. -/
inductive CellError where
  /-- A condition the crate describes in its own words. -/
  | generic (message : String)
  /-- Bytes that are not UTF-8. -/
  | fromUtf8 (bytes : ByteArray)
  /-- A text that is not an integer. -/
  | parseInt (kind : IntErrorKind)
  deriving DecidableEq

/-- The message an error displays. -/
def CellError.display : CellError → String
  | .generic message => "Store error: " ++ message
  | .fromUtf8 bytes => ((firstUtf8Error 0 bytes.toList).map Utf8Error.display).getD ""
  | .parseInt kind => kind.display

/-- `String::from_utf8`: bytes that are UTF-8 become the string they encode. -/
def fromUtf8 (bytes : ByteArray) : Except CellError String :=
  match String.fromUTF8? bytes with
  | some text => .ok text
  | none => .error (.fromUtf8 bytes)

/-- Decoding the bytes of a string gives that string. -/
@[simp] theorem fromUtf8_toByteArray (text : String) : fromUtf8 text.toByteArray = .ok text := by
  -- A string carries the validity of its own bytes.
  simp [fromUtf8, String.fromUTF8?, text.isValidUTF8, String.fromUTF8]

/-- Decoding succeeds on exactly the valid encodings. -/
theorem fromUtf8_isOk_iff (bytes : ByteArray) :
    (∃ text, fromUtf8 bytes = .ok text) ↔ bytes.IsValidUTF8 := by
  -- The decoder tests validity and nothing else.
  by_cases valid : bytes.IsValidUTF8 <;> simp [fromUtf8, String.fromUTF8?, valid]

/-- A decoded string has the bytes it was decoded from. -/
theorem toByteArray_of_fromUtf8 {bytes : ByteArray} {text : String}
    (decoded : fromUtf8 bytes = .ok text) : text.toByteArray = bytes := by
  -- Decoding attaches a validity proof to the same bytes.
  by_cases valid : bytes.IsValidUTF8
  · simp only [fromUtf8, String.fromUTF8?, valid, dite_true, Except.ok.injEq] at decoded
    subst text
    rfl
  · simp [fromUtf8, String.fromUTF8?, valid] at decoded

end RedisCell
