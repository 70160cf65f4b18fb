import RedisCell.Throttle.Span

/-! When a command leaves its key either as it was, or holding its new arrival time until a deadline. -/

namespace RedisCell

open Keyspace ThrottleCommand

/-- The first integer a command has replied, which says whether it was limited. -/
def Keyspace.flag (before after : Keyspace) : Option Reply :=
  (after.replies.drop before.replies.length)[1]?

/-- The first element of a whole answer tells whether the command was throttled. -/
theorem Keyspace.flag_answered {before after : Keyspace} (same : after.replies = before.replies)
    (throttled : Bool) (result : RateLimitResult) :
    before.flag (after.answered throttled result) =
      some (.integer (if throttled then 1 else 0)) := by
  simp [flag, same, ThrottleCommand.replies]

/--
A command keeps its key whole: a failed or limited one leaves the entry as it was, and an admitted
one leaves the new arrival time with a deadline.
-/
structure KeepsWhole (before after : Keyspace) (key : String) (newTat : OffsetDateTime)
    (outcome : Option (Except CellError Unit)) : Prop where
  failed : ∀ error, outcome = some (.error error) → after.entries key = before.entries key
  limited : outcome = some (.ok ()) → before.flag after = some (.integer 1) →
    after.entries key = before.entries key
  admitted : outcome = some (.ok ()) → before.flag after = some (.integer 0) →
    ∃ value deadline, after.entries key =
        some ⟨.text (u64ToString value).toByteArray, some deadline⟩ ∧
      fromNanoseconds value = newTat

/--
The condition on a command and its key: the rate is zero, or the request is refused, or its span is
longer than minus a millisecond and ends where a stored value can count to, or it is at most minus
two milliseconds and the key already holds what is written, without a deadline.
-/
def Commits (keyspace : Keyspace) (args : Arguments) (tatVal : Option UInt64) : Prop :=
  let span := args.span tatVal keyspace.clock
  let finish := keyspace.clock.nanos + span
  args.interval = 0 ∨ args.interval * (args.maxBurst.toInt + 1) < span ∨
    (-1000000 < span ∧ 0 ≤ finish ∧ finish < 2 ^ 64) ∨
    (span ≤ -2000000 ∧ keyspace.entries args.key =
      some ⟨.text (u64ToString (UInt64.ofInt finish)).toByteArray, none⟩)

section Whole

variable {keyspace : Keyspace} {words : List String} {args : Arguments} {tatVal : Option UInt64}

/-- An admitted command keeps its key whole when its span is not cut to a negative expiry. -/
theorem keepsWhole_granted {before after : Keyspace} {key : String} {newTat : OffsetDateTime}
    {value : UInt64} {expiry : Option OffsetDateTime}
    (flagged : before.flag after = some (.integer 0))
    (stored : after.entries key = some ⟨.text (u64ToString value).toByteArray, expiry⟩) :
    KeepsWhole before after key newTat (some (.ok ())) ↔
      expiry ≠ none ∧ fromNanoseconds value = newTat := by
  -- Only the clause of an admitted command speaks about this outcome.
  constructor
  · intro whole
    obtain ⟨value', deadline, stored', decodes⟩ := whole.admitted rfl flagged
    rw [stored, Option.some.injEq, Entry.mk.injEq, Content.text.injEq] at stored'
    obtain ⟨sameText, sameExpiry⟩ := stored'
    rw [value_of_text sameText]
    exact ⟨by rw [sameExpiry]; exact Option.some_ne_none _, decodes⟩
  · intro holds
    obtain ⟨expires, decodes⟩ := holds
    obtain ⟨deadline, rfl⟩ := Option.ne_none_iff_exists'.mp expires
    refine ⟨?_, ?_, ?_⟩
    · intro error impossible
      cases impossible
    · intro _ limited
      rw [flagged] at limited
      cases limited
    · intro _ _
      exact ⟨value, deadline, stored, decodes⟩

/-- A failed command keeps its key whole when the entry is what it was. -/
theorem keepsWhole_failed {before after : Keyspace} {key : String} {newTat : OffsetDateTime}
    (error : CellError) :
    KeepsWhole before after key newTat (some (.error error)) ↔
      after.entries key = before.entries key := by
  -- Only the clause of a failed command speaks about this outcome.
  constructor
  · intro whole
    exact whole.failed error rfl
  · intro same
    refine ⟨fun _ _ => same, ?_, ?_⟩ <;> intro impossible <;> cases impossible

/-- A command whose expiry is accepted keeps its key whole when that is a deadline, and the new time
can be stored. -/
theorem keepsWhole_accepted (read : arguments words = .ok args) (exact_ : args.Exact)
    (nonzero : args.interval ≠ 0) (reads : keyspace.tatVal args.key = some (.ok tatVal))
    (passes : ¬args.limiter.Blocks (args.limiter.increment args.quantity) tatVal keyspace.clock)
    (accepted : -1 ≤ args.millis tatVal keyspace.clock) {finish : Int}
    (finishes : keyspace.clock.nanos + args.span tatVal keyspace.clock = finish) :
    KeepsWhole keyspace (keyspace.throttle words).2 args.key ⟨finish⟩ (keyspace.throttle words).1 ↔
      0 ≤ args.millis tatVal keyspace.clock ∧ 0 ≤ finish ∧ finish < 2 ^ 64 := by
  -- The answer is not throttled, and the entry that is left is the one charged.
  rw [throttle_granted read exact_ nonzero reads passes accepted]
  generalize (args.limiter.report (RateLimiter.granted
    (args.limiter.increment args.quantity) tatVal keyspace.clock)).2 = result
  have flagged : keyspace.flag ((keyspace.put args.key (args.written tatVal
      keyspace.clock)).answered false result) = some (.integer 0) := flag_answered rfl false result
  have stored : ((keyspace.put args.key (args.written tatVal keyspace.clock)).answered false
      result).entries args.key = some (args.written tatVal keyspace.clock) :=
    put_entries_self _ _ _
  refine (keepsWhole_granted flagged stored).trans ?_
  have decodes := fromNanoseconds_nanoseconds_iff ⟨finish⟩
  rw [nanoseconds_eq] at decodes
  simp only [finishes]
  -- Only an expiry that is not negative becomes a deadline.
  have expires : (if 0 ≤ args.millis tatVal keyspace.clock then
      some (keyspace.clock + Duration.new 0 (args.millis tatVal keyspace.clock * 1000000))
      else none) ≠ none ↔ 0 ≤ args.millis tatVal keyspace.clock := by
    split <;> simp_all
  rw [expires, decodes]

/-- A command whose expiry is refused keeps its key whole when the key was what it has written. -/
theorem keepsWhole_unexpired (read : arguments words = .ok args) (exact_ : args.Exact)
    (nonzero : args.interval ≠ 0) (reads : keyspace.tatVal args.key = some (.ok tatVal))
    (passes : ¬args.limiter.Blocks (args.limiter.increment args.quantity) tatVal keyspace.clock)
    (refused : ¬-1 ≤ args.millis tatVal keyspace.clock) {finish : Int}
    (finishes : keyspace.clock.nanos + args.span tatVal keyspace.clock = finish) :
    KeepsWhole keyspace (keyspace.throttle words).2 args.key ⟨finish⟩ (keyspace.throttle words).1 ↔
      keyspace.entries args.key =
        some ⟨.text (u64ToString (UInt64.ofInt finish)).toByteArray, none⟩ := by
  -- The write has come before the refusal, and has cleared the expiry.
  have lasting : args.written tatVal keyspace.clock =
      ⟨.text (u64ToString (UInt64.ofInt finish)).toByteArray, none⟩ := by
    rw [Arguments.written, if_neg (by omega), finishes]
  rw [throttle_unexpired read exact_ nonzero reads passes refused, keepsWhole_failed,
    put_entries_self, lasting]
  exact eq_comm

/-- A command on a keyspace keeps its key whole exactly when it commits. -/
theorem keepsWhole_iff (read : arguments words = .ok args) (exact_ : args.Exact)
    (reads : keyspace.tatVal args.key = some (.ok tatVal)) :
    KeepsWhole keyspace (keyspace.throttle words).2 args.key
        ⟨keyspace.clock.nanos + args.span tatVal keyspace.clock⟩ (keyspace.throttle words).1 ↔
      Commits keyspace args tatVal := by
  -- The cases are those of the command: without a rate, refused, or charged.
  by_cases zero : args.interval = 0
  · rw [throttle_zero read zero, keepsWhole_failed]
    exact ⟨fun _ => Or.inl zero, fun _ => rfl⟩
  by_cases blocks : args.limiter.Blocks (args.limiter.increment args.quantity) tatVal keyspace.clock
  · rw [throttle_blocked read zero reads blocks]
    have refused := (exact_.blocks_iff tatVal keyspace.clock).mp blocks
    refine ⟨fun _ => Or.inr (Or.inl refused), fun _ => ⟨fun _ _ => rfl, fun _ _ => rfl, ?_⟩⟩
    intro _ flagged
    rw [flag_answered rfl] at flagged
    cases flagged
  · -- The expiry decides between a deadline, none, and a failure that has already written.
    have notRefused := mt (exact_.blocks_iff tatVal keyspace.clock).mpr blocks
    have rounded := tdiv_cases (args.span tatVal keyspace.clock) 1000000
    simp only [Commits, zero, notRefused, false_or]
    by_cases accepted : -1 ≤ args.millis tatVal keyspace.clock
    · rw [keepsWhole_accepted read exact_ zero reads blocks accepted rfl]
      simp only [Arguments.millis] at accepted ⊢
      constructor
      · intro holds
        obtain ⟨future, inside⟩ := holds
        exact Or.inl ⟨by omega, inside⟩
      · intro holds
        rcases holds with ⟨future, inside⟩ | ⟨past, _⟩
        · exact ⟨by omega, inside⟩
        · omega
    · rw [keepsWhole_unexpired read exact_ zero reads blocks accepted rfl]
      simp only [Arguments.millis] at accepted
      constructor
      · intro same
        exact Or.inr ⟨by omega, same⟩
      · intro holds
        rcases holds with ⟨future, _⟩ | ⟨_, same⟩
        · omega
        · exact same

end Whole

/--
A command keeps its key whole exactly when it commits.

It goes wrong by a quantity of the other sign than the interval, whose charge ends before now, or by
a clock beyond the range of a stored value.
-/
theorem keepsWhole_iff_commits {σ : Type} (server : Server σ) (state : σ) {words : List String}
    {args : Arguments} {tatVal : Option UInt64} (read : arguments words = .ok args)
    (exact_ : args.Exact) (reads : (server.view state).tatVal args.key = some (.ok tatVal)) :
    let keyspace := server.view state
    KeepsWhole keyspace (server.view (server.throttle state words).2) args.key
        ⟨keyspace.clock.nanos + args.span tatVal keyspace.clock⟩ (server.throttle state words).1 ↔
      Commits keyspace args tatVal := by
  -- Any server shows what its keyspace does.
  have viewed := server.throttle_view state words
  have whole := keepsWhole_iff read exact_ reads
  rw [viewed] at whole
  exact whole

/-- The documented command on a fresh key answers whole, and leaves its key with an expiry. -/
theorem keepsWhole_iff_commits_readme :
    KeepsWhole Keyspace.empty (Keyspace.empty.throttle readmeWords).2 "user123" ⟨6000000000⟩
        (Keyspace.empty.throttle readmeWords).1 :=
  -- The span is six seconds, well within what a stored value can count to.
  (keepsWhole_iff_commits Server.keyspace Keyspace.empty
    (show arguments readmeWords = .ok readmeArguments by decide)
    ⟨by decide, by decide⟩ (tatVal_of_absent rfl)).mpr (Or.inr (Or.inr (Or.inl (by decide))))

/-- A negative quantity writes its key, and then fails to set the expiry. -/
theorem failed_command_writes :
    let after := Keyspace.empty.throttle ["cl.throttle", "user123", "15", "30", "60", "-1"]
    after.1 = some (.error (.generic "Error while setting key expire")) ∧
      Keyspace.empty.entries "user123" = none ∧
      after.2.entries "user123" =
        some ⟨.text (u64ToString 18446744071709551616).toByteArray, none⟩ := by
  -- The value is written before its expiry is refused.
  decide

end RedisCell
