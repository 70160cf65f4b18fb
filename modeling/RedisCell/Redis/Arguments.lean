import RedisCell.Throttle

/-! Which argument vectors a command is run on. -/

namespace RedisCell

open Interaction

/-- Decoding keeps every argument, byte for byte. -/
theorem parseArgs_bytes {argv : List ByteArray} {args : List String}
    (parsed : parseArgs argv = .ok args) : args.map String.toByteArray = argv := by
  -- Every argument was decoded, since one failure fails them all.
  induction argv generalizing args with
  | nil =>
    cases parsed
    rfl
  | cons redisStr rest ih =>
    simp only [parseArgs, Bind.bind, Except.bind] at parsed
    cases decoded : fromUtf8 redisStr with
    | error error => simp [decoded] at parsed
    | ok arg =>
      cases others : parseArgs rest with
      | error error => simp [decoded, others] at parsed
      | ok tail =>
        simp only [decoded, others, Pure.pure, Except.pure, Except.ok.injEq] at parsed
        rw [← parsed, List.map_cons, ih others, toByteArray_of_fromUtf8 decoded]

/-- Decoding succeeds when every argument is UTF-8. -/
theorem parseArgs_of_valid {argv : List ByteArray}
    (valid : ∀ arg ∈ argv, arg.IsValidUTF8) : ∃ args, parseArgs argv = .ok args := by
  -- The first argument decodes, and so do the others.
  induction argv with
  | nil => exact ⟨[], rfl⟩
  | cons redisStr rest ih =>
    obtain ⟨arg, decoded⟩ := (fromUtf8_isOk_iff redisStr).mpr (valid redisStr (by simp))
    obtain ⟨args, others⟩ := ih fun other member => valid other (by simp [member])
    refine ⟨arg :: args, ?_⟩
    simp only [parseArgs, decoded, others, Bind.bind, Except.bind, Pure.pure, Except.pure]

/-- Decoded arguments were UTF-8. -/
theorem valid_of_bytes {argv : List ByteArray} {args : List String}
    (bytes : args.map String.toByteArray = argv) : ∀ arg ∈ argv, arg.IsValidUTF8 := by
  -- A string carries the validity of its own bytes.
  intro arg member
  rw [← bytes] at member
  obtain ⟨text, _, rfl⟩ := List.mem_map.mp member
  exact text.isValidUTF8

/--
The harness answers an argument vector: it runs the command on exactly those strings and returns its
status, or it replies with one error and returns that status.
-/
def Answers (argv : List ByteArray) : Prop :=
  (∃ args, args.map String.toByteArray = argv ∧
      throttleCommand.harness argv = throttleCommand.respond args) ∨
    ∃ message, throttleCommand.harness argv = .ask (.replyWithError message) fun _ => .ret .err

/-- A vector that does not decode makes the harness panic. -/
theorem harness_of_undecoded {argv : List ByteArray} {error : CellError}
    (undecoded : parseArgs argv = .error error) : throttleCommand.harness argv = .abort := by
  rw [Command.harness, undecoded]

/-- The harness answers exactly the argument vectors that are UTF-8 throughout. -/
theorem answers_iff_valid (argv : List ByteArray) :
    Answers argv ↔ ∀ arg ∈ argv, arg.IsValidUTF8 := by
  -- Decoding is the only step of the harness that can panic.
  constructor
  · intro holds
    rcases holds with ⟨args, bytes, _⟩ | ⟨message, replied⟩
    · exact valid_of_bytes bytes
    · -- A reply comes from a command that was run, so its arguments were decoded.
      cases parsed : parseArgs argv with
      | error error =>
        rw [harness_of_undecoded parsed] at replied
        cases replied
      | ok args => exact valid_of_bytes (parseArgs_bytes parsed)
  · intro valid
    obtain ⟨args, parsed⟩ := parseArgs_of_valid valid
    refine Or.inl ⟨args, parseArgs_bytes parsed, ?_⟩
    rw [Command.harness, parsed]

/-- A single byte that is not UTF-8 panics. -/
theorem harness_panics :
    throttleCommand.harness ["cl.throttle".toByteArray, ⟨#[0xff]⟩] = .abort ∧
      ¬Answers ["cl.throttle".toByteArray, ⟨#[0xff]⟩] := by
  -- The byte is found by decoding, before the command is looked at.
  have invalid : parseArgs ["cl.throttle".toByteArray, ⟨#[0xff]⟩] =
      .error (.fromUtf8 ⟨#[0xff]⟩) := by decide
  have panics := harness_of_undecoded invalid
  refine ⟨panics, ?_⟩
  intro holds
  rcases holds with ⟨args, bytes, ran⟩ | ⟨message, replied⟩
  · have undecodable : ¬(ByteArray.mk #[0xff]).IsValidUTF8 := by decide
    exact undecodable (valid_of_bytes bytes _ (by simp))
  · rw [panics] at replied
    cases replied

end RedisCell
