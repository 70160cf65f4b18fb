import RedisCell.Text.Signed
import RedisCell.Redis.Arguments

/-! The words of the command: those it accepts, what they ask for, and what it says of the others. -/

namespace RedisCell

namespace ThrottleCommand

/-- A text of some signed word. -/
def IsNumeral (text : String) : Prop := ∃ value, IsSignedTextOf text value

/-- What the words of a command ask for, of which the first one is the command's own name. -/
inductive Asks : List String → Arguments → Prop where
  /-- A quantity that is left out is one. -/
  | short (own key : String) {maxBurst count period : String} {burst number seconds : Int64}
    (first : IsSignedTextOf maxBurst burst) (second : IsSignedTextOf count number)
    (third : IsSignedTextOf period seconds) :
    Asks [own, key, maxBurst, count, period] ⟨key, burst, number, seconds, 1⟩
  | long (own key : String) {maxBurst count period quantity : String}
    {burst number seconds amount : Int64}
    (first : IsSignedTextOf maxBurst burst) (second : IsSignedTextOf count number)
    (third : IsSignedTextOf period seconds) (fourth : IsSignedTextOf quantity amount) :
    Asks [own, key, maxBurst, count, period, quantity] ⟨key, burst, number, seconds, amount⟩

/-- What is wrong with the words of a command, in the words of its message. -/
inductive Refuses : List String → String → Prop where
  | usage {words : List String} (few : words.length ≠ 5) (many : words.length ≠ 6) :
    Refuses words
      ("Usage: " ++ name ++ " <key> <max_burst> <count per period> <period> [<quantity>]")
  /-- The first word that should be a numeral and is none is quoted. -/
  | numeral {own key word : String} {earlier later : List String}
    (length : (earlier ++ word :: later).length = 3 ∨ (earlier ++ word :: later).length = 4)
    (fine : ∀ other ∈ earlier, IsNumeral other) (bad : ¬IsNumeral word) :
    Refuses (own :: key :: (earlier ++ word :: later)) ("Couldn't parse as integer: " ++ word)

/-- The words that a client sends for a command. -/
def Arguments.words (args : Arguments) : List String :=
  [name, args.key, i64ToString args.maxBurst, i64ToString args.count, i64ToString args.period,
    i64ToString args.quantity]

/-- A numeral is read as its value. -/
theorem parseArgument_numeral {text : String} {value : Int64} (stands : IsSignedTextOf text value) :
    parseArgument text = .ok value := by
  -- The parser accepts exactly the numerals.
  rw [parseArgument, (parseI64_eq_ok_iff text value).mpr stands]
  rfl

/-- Any other word is refused. -/
theorem parseArgument_refused {text : String} (bad : ¬IsNumeral text) :
    parseArgument text = .error (.generic ("Couldn't parse as integer: " ++ text)) := by
  rw [parseArgument]
  -- A word that parses would be a numeral.
  cases read : parseI64 text with
  | error kind => rfl
  | ok value => exact absurd ⟨value, (parseI64_eq_ok_iff text value).mp read⟩ bad

/-- The words after the key are read one after the other, before anything is made of them. -/
theorem arguments_eq (own key : String) {numerals : List String}
    (length : numerals.length = 3 ∨ numerals.length = 4) :
    ∃ made : List Int64 → Except CellError Arguments,
      arguments (own :: key :: numerals) = numerals.mapM parseArgument >>= made := by
  -- The words are parsed in order, and only then put together.
  match numerals, length with
  | [maxBurst, count, period], _ =>
    refine ⟨fun values => .ok ⟨key, values[0]!, values[1]!, values[2]!, 1⟩, ?_⟩
    simp only [arguments, List.mapM_cons, List.mapM_nil, bind_assoc, pure_bind]
    rfl
  | [maxBurst, count, period, quantity], _ =>
    refine ⟨fun values => .ok ⟨key, values[0]!, values[1]!, values[2]!, values[3]!⟩, ?_⟩
    simp only [arguments, List.mapM_cons, List.mapM_nil, bind_assoc, pure_bind]
    rfl

/-- The first word that is no numeral ends the reading. -/
theorem mapM_refused {word : String} {earlier : List String} (later : List String)
    (fine : ∀ other ∈ earlier, IsNumeral other) (bad : ¬IsNumeral word) :
    (earlier ++ word :: later).mapM parseArgument =
      .error (.generic ("Couldn't parse as integer: " ++ word)) := by
  -- The induction is on the numerals before the word.
  induction earlier with
  | nil =>
    rw [List.nil_append, List.mapM_cons, parseArgument_refused bad]
    rfl
  | cons other rest ih =>
    -- A numeral before it is read, and its value is not used.
    obtain ⟨value, stands⟩ := fine other List.mem_cons_self
    rw [List.cons_append, List.mapM_cons, parseArgument_numeral stands,
      ih fun later member => fine later (List.mem_cons_of_mem _ member)]
    rfl

/-- Words that ask for something are read as that. -/
theorem arguments_of_asks {words : List String} {args : Arguments} (asks : Asks words args) :
    arguments words = .ok args := by
  -- Every word that has to be a number is one.
  cases asks with
  | short own key first second third =>
    rw [arguments, parseArgument_numeral first, parseArgument_numeral second,
      parseArgument_numeral third]
    rfl
  | long own key first second third fourth =>
    rw [arguments, parseArgument_numeral first, parseArgument_numeral second,
      parseArgument_numeral third, parseArgument_numeral fourth]
    rfl

/-- Words that are refused are answered with what is wrong with them. -/
theorem arguments_of_refuses {words : List String} {message : String}
    (refuses : Refuses words message) : arguments words = .error (.generic message) := by
  cases refuses with
  | usage few many =>
    -- The length is looked at first, so no word has been read.
    unfold arguments
    split
    · exact absurd rfl few
    · exact absurd rfl many
    · rfl
  | numeral length fine bad =>
    obtain ⟨made, read⟩ := arguments_eq _ _ length
    rw [read, mapM_refused _ fine bad]
    rfl

/-- Some numerals are read, or the first word among them that is none is found. -/
theorem numerals_cases (words : List String) :
    (∀ word ∈ words, IsNumeral word) ∨
      ∃ earlier word later, words = earlier ++ word :: later ∧
        (∀ other ∈ earlier, IsNumeral other) ∧ ¬IsNumeral word := by
  -- The induction is on the words.
  induction words with
  | nil => exact Or.inl (by simp)
  | cons word rest ih =>
    by_cases numeral : IsNumeral word
    · -- What is found among the others is found behind this word.
      rcases ih with all | ⟨earlier, bad, later, rfl, fine, notNumeral⟩
      · exact Or.inl (List.forall_mem_cons.mpr ⟨numeral, all⟩)
      · exact Or.inr ⟨word :: earlier, bad, later, rfl,
          List.forall_mem_cons.mpr ⟨numeral, fine⟩, notNumeral⟩
    · exact Or.inr ⟨[], word, rest, rfl, by simp, numeral⟩

/-- All words ask for something, or are refused for some reason. -/
theorem asks_or_refuses (words : List String) :
    (∃ args, Asks words args) ∨ ∃ message, Refuses words message := by
  by_cases length : words.length = 5 ∨ words.length = 6
  · -- The three or four words after the key should be numerals.
    match words, length with
    | own :: key :: maxBurst :: count :: period :: rest, length =>
      rcases numerals_cases (maxBurst :: count :: period :: rest) with
        all | ⟨earlier, word, later, parts, fine, bad⟩
      · left
        obtain ⟨burst, first⟩ := all maxBurst (by simp)
        obtain ⟨number, second⟩ := all count (by simp)
        obtain ⟨seconds, third⟩ := all period (by simp)
        match rest, length with
        | [], _ => exact ⟨_, .short own key first second third⟩
        | [quantity], _ =>
          obtain ⟨amount, fourth⟩ := all quantity (by simp)
          exact ⟨_, .long own key first second third fourth⟩
      · right
        rw [parts]
        refine ⟨_, .numeral ?_ fine bad⟩
        rw [← parts]
        simpa using length
  · exact Or.inr ⟨_, .usage (fun five => length (Or.inl five)) fun six => length (Or.inr six)⟩

/-- Words that are read ask for what they are read as. -/
theorem asks_of_arguments {words : List String} {args : Arguments}
    (read : arguments words = .ok args) : Asks words args := by
  -- Words that ask for nothing would have been refused.
  rcases asks_or_refuses words with ⟨others, asks⟩ | ⟨message, refuses⟩
  · rw [arguments_of_asks asks] at read
    cases read
    exact asks
  · rw [arguments_of_refuses refuses] at read
    cases read

/-- Words that are refused have something wrong with them. -/
theorem refuses_of_arguments {words : List String} {error : CellError}
    (refused : arguments words = .error error) :
    ∃ message, error = .generic message ∧ Refuses words message := by
  -- Words that ask for something would have been read.
  rcases asks_or_refuses words with ⟨others, asks⟩ | ⟨message, refuses⟩
  · rw [arguments_of_asks asks] at refused
    cases refused
  · rw [arguments_of_refuses refuses] at refused
    cases refused
    exact ⟨message, rfl, refuses⟩

/-- The bytes of some words are decoded as these words. -/
theorem parseArgs_words (words : List String) :
    parseArgs (words.map String.toByteArray) = .ok words := by
  -- Text is decoded to itself, word by word.
  induction words with
  | nil => rfl
  | cons word rest ih =>
    rw [List.map_cons, parseArgs, fromUtf8_toByteArray, ih]
    rfl

/-- A command that is refused for its words asks nothing of the server but to say so. -/
theorem harness_of_refuses {words : List String} {message : String}
    (refuses : Refuses words message) :
    throttleCommand.harness (words.map String.toByteArray) =
      .ask (.replyWithError (cString ("Cell error: Store error: " ++ message))) fun _ =>
        .ret .err := by
  -- The command fails while it reads its words.
  have ran : (throttleCommand.run words).run = .ret (.error (.generic message)) := by
    show (run words).run = _
    rw [run, ExceptT.run_bind, arguments_of_refuses refuses]
    rfl
  rw [Command.harness, parseArgs_words]
  simp only [Command.respond, ran]
  rfl

/--
The words of a command are read as what they ask for, and words that ask for nothing are refused for
what is wrong with them. Nothing is asked of the server before that, other than the words themselves.

Whatever can be asked for has words, which are read as just that.
-/
theorem arguments_exact :
    (∀ words args, arguments words = .ok args ↔ Asks words args) ∧
      (∀ words error, arguments words = .error error ↔
        ∃ message, error = .generic message ∧ Refuses words message) ∧
      (∀ words message, Refuses words message →
        throttleCommand.harness (words.map String.toByteArray) =
          .ask (.replyWithError (cString ("Cell error: Store error: " ++ message))) fun _ =>
            .ret .err) ∧
      ∀ args : Arguments, arguments args.words = .ok args := by
  -- Each part has its own lemma.
  refine ⟨fun words args => ⟨asks_of_arguments, arguments_of_asks⟩,
    fun words error => ⟨refuses_of_arguments, ?_⟩, fun words message => harness_of_refuses,
    fun args => ?_⟩
  · rintro ⟨message, rfl, refuses⟩
    exact arguments_of_refuses refuses
  · -- A client sends the quantity too, even if it is one.
    exact arguments_of_asks (.long _ _ (isSignedTextOf_i64ToString _) (isSignedTextOf_i64ToString _)
      (isSignedTextOf_i64ToString _) (isSignedTextOf_i64ToString _))

end ThrottleCommand

end RedisCell
