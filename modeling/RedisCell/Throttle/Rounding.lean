import RedisCell.Throttle.Failure
import Mathlib.Order.Bounds.Defs

/-! When the seconds a client is told are exactly the seconds it has to wait. -/

namespace RedisCell

open Keyspace ThrottleCommand

/-- A span has no fraction of a second, or one of at least a millisecond. -/
def Rounds (span : Int) : Prop := span % 1000000000 = 0 ∨ 1000000 ≤ span % 1000000000

/-- The seconds a client is told for a span that is not negative. -/
theorem roundedSeconds_toInt {span : Duration} (nonneg : 0 ≤ span.nanos)
    (bounded : span.nanos < 2 ^ 62 * 1000000000) :
    (roundedSeconds span).toInt =
      span.nanos / 1000000000 + if 1000000 ≤ span.nanos % 1000000000 then 1 else 0 := by
  -- Nothing is truncated below zero, and nothing saturates.
  have whole : span.wholeSeconds = span.nanos / 1000000000 :=
    Int.tdiv_eq_ediv_of_nonneg nonneg
  have rest : 0 ≤ span.nanos % 1000000000 := Int.emod_nonneg _ (by omega)
  have millis : span.subsecMilliseconds = span.nanos % 1000000000 / 1000000 := by
    rw [Duration.subsecMilliseconds, Duration.subsecNanoseconds,
      Int.tmod_eq_emod_of_nonneg nonneg, Int.tdiv_eq_ediv_of_nonneg rest]
  have seconds : (Int64.ofIntClamp span.wholeSeconds).toInt = span.nanos / 1000000000 := by
    rw [whole]
    exact toInt_ofIntClamp_eq_iff.mpr ⟨by omega, by omega⟩
  simp only [roundedSeconds, millis]
  by_cases fraction : 1000000 ≤ span.nanos % 1000000000
  · rw [if_pos (by omega), if_pos fraction, toInt_add_eq, seconds]
    exact toInt_ofInt_of_fits ⟨by show _ ≤ _ + 1; omega, by show _ + 1 < _; omega⟩
  · rw [if_neg (by omega), if_neg fraction, seconds, add_zero]

/-- A span that is not negative is never told as minus one second. -/
theorem roundedSeconds_ne {span : Duration} (nonneg : 0 ≤ span.nanos)
    (bounded : span.nanos < 2 ^ 62 * 1000000000) : roundedSeconds span ≠ -1 := by
  -- A second is added only to what is positive already.
  intro same
  have seconds := roundedSeconds_toInt nonneg bounded
  have minusOne : (-1 : Int64).toInt = -1 := by decide
  rw [same, minusOne] at seconds
  have quotient := Int.ediv_nonneg nonneg (show (0 : Int) ≤ 1000000000 by omega)
  split at seconds <;> omega

/-- The seconds a client is told are the least that cover a span exactly when the span rounds. -/
theorem roundedSeconds_least_iff {span : Duration} (nonneg : 0 ≤ span.nanos)
    (bounded : span.nanos < 2 ^ 62 * 1000000000) :
    IsLeast {seconds : Int | span.nanos ≤ seconds * 1000000000} (roundedSeconds span).toInt ↔
      Rounds span.nanos := by
  -- The seconds told are the whole ones, and one more for a fraction that is seen.
  rw [roundedSeconds_toInt nonneg bounded]
  unfold Rounds
  constructor
  · -- A fraction below a millisecond is cut off, and what is left falls short.
    intro holds
    obtain ⟨covers, _⟩ := holds
    simp only [Set.mem_ofPred_eq] at covers
    split at covers <;> omega
  · intro rounds
    constructor
    · simp only [Set.mem_ofPred_eq]
      split <;> omega
    · intro seconds covers
      simp only [Set.mem_ofPred_eq] at covers
      split <;> omega

/-- The same command is admitted at a later instant, whatever else has changed but its key. -/
def AdmitsUnchanged (words : List String) (key : String) (tatVal : Option UInt64)
    (later : OffsetDateTime) : Prop :=
  ∀ keyspace : Keyspace, keyspace.clock = later → keyspace.tatVal key = some (.ok tatVal) →
    keyspace.flag (keyspace.throttle words).2 = some (.integer 0)

/-- What a client is told is exact: the least seconds after which it is sure to be admitted, and the
least seconds that cover the reset. -/
structure TellsSeconds (words : List String) (key : String) (tatVal : Option UInt64)
    (now : OffsetDateTime) (throttled : Bool) (result : RateLimitResult) : Prop where
  wait : throttled = true → roundedSeconds result.retryAfter ≠ -1 →
    IsLeast {seconds : Int | ∀ later : OffsetDateTime,
        now.nanos + seconds * 1000000000 ≤ later.nanos → AdmitsUnchanged words key tatVal later}
      (roundedSeconds result.retryAfter).toInt
  reset : 0 ≤ result.resetAfter.nanos →
    IsLeast {seconds : Int | result.resetAfter.nanos ≤ seconds * 1000000000}
      (roundedSeconds result.resetAfter).toInt

/-- How far a stored arrival time lies ahead of now, which a missing one does not. -/
def ThrottleCommand.Arguments.lead (tatVal : Option UInt64) (now : OffsetDateTime) : Int :=
  (storedTat tatVal).elim 0 fun tat => tat - now.nanos

/-- The times a command reports have no fraction of a second below a millisecond. -/
def ThrottleCommand.Arguments.ReportsRound (args : Arguments) (tatVal : Option UInt64)
    (now : OffsetDateTime) : Prop :=
  let tolerance := args.interval * (args.maxBurst.toInt + 1)
  -- An admitted command reports its span alone, and a refused one its wait and the lead.
  if args.span tatVal now ≤ tolerance then Rounds (args.span tatVal now)
  else
    (args.interval * args.quantity.toInt ≤ tolerance → Rounds (args.span tatVal now - tolerance)) ∧
      (0 ≤ Arguments.lead tatVal now → Rounds (Arguments.lead tatVal now))

/-- A keyspace whose clock and whose one key are given. -/
def Keyspace.holding (key : String) (tatVal : Option UInt64) (now : OffsetDateTime) : Keyspace :=
  match tatVal with
  | none => Keyspace.empty.wait now
  | some value =>
    (Keyspace.empty.wait now).put key ⟨.text (u64ToString value).toByteArray, none⟩

/-- The one key of such a keyspace decodes to its value. -/
theorem Keyspace.tatVal_holding (key : String) (tatVal : Option UInt64) (now : OffsetDateTime) :
    (Keyspace.holding key tatVal now).tatVal key = some (.ok tatVal) := by
  -- The one key is absent, or holds the text of its value and lasts.
  cases tatVal with
  | none => exact tatVal_of_absent rfl
  | some value => exact tatVal_of_live (live_of_lasting (put_entries_self _ _ _))

/-- The clock of such a keyspace shows the given instant. -/
theorem Keyspace.holding_clock (key : String) (tatVal : Option UInt64) (now : OffsetDateTime) :
    (Keyspace.holding key tatVal now).clock = now := by
  cases tatVal <;> rfl

section Seconds

variable {words : List String} {args : Arguments} {tatVal : Option UInt64} {now : OffsetDateTime}

/-- A command is admitted on an unchanged key when its span is within the tolerance. -/
theorem admitsUnchanged_iff (read : arguments words = .ok args) (exact_ : args.Exact)
    (positive : 0 < args.interval) (nonneg : 0 ≤ args.quantity.toInt) (later : OffsetDateTime) :
    AdmitsUnchanged words args.key tatVal later ↔
      args.span tatVal later ≤ args.interval * (args.maxBurst.toInt + 1) := by
  -- One keyspace that holds just the key shows that the condition is needed.
  constructor
  · intro admits
    by_contra exceeds
    have reads := tatVal_holding args.key tatVal later
    have clock := holding_clock args.key tatVal later
    have flagged := admits _ clock reads
    have blocks := (exact_.blocks_iff tatVal later).mpr (not_le.mp exceeds)
    rw [← clock] at blocks
    rw [throttle_blocked read positive.ne' reads blocks, flag_answered rfl] at flagged
    cases flagged
  · intro within keyspace clock reads
    subst clock
    have passes := mt (exact_.blocks_iff tatVal keyspace.clock).mp (not_lt.mpr within)
    have future := (Arguments.span_nonneg positive nonneg tatVal keyspace.clock).2
    have accepted : -1 ≤ args.millis tatVal keyspace.clock := by omega
    rw [throttle_granted read exact_ positive.ne' reads passes accepted]
    exact flag_answered rfl false _

/-- A refused request is sure to be admitted after exactly the time its span exceeds the tolerance. -/
theorem guaranteed_iff
    (refused : args.interval * (args.maxBurst.toInt + 1) < args.span tatVal now)
    (possible : args.interval * args.quantity.toInt ≤ args.interval * (args.maxBurst.toInt + 1))
    (wait : Int) :
    (∀ later : OffsetDateTime, now.nanos + wait ≤ later.nanos →
        args.span tatVal later ≤ args.interval * (args.maxBurst.toInt + 1)) ↔
      args.span tatVal now - args.interval * (args.maxBurst.toInt + 1) ≤ wait := by
  -- A span shrinks with the clock for as long as a stored value leads it.
  cases tatVal with
  | none =>
    -- Nothing is ahead of a missing key, so only the quantity could have been refused.
    simp only [Arguments.span, storedTat, Option.map_none, Gcra.due_none] at refused
    omega
  | some value =>
    simp only [Arguments.span, storedTat, Option.map_some, Gcra.due_some] at refused ⊢
    constructor
    · intro admitted
      have first := admitted ⟨now.nanos + wait⟩ (le_refl _)
      simp only at first
      omega
    · intro enough later reached
      omega

/-- A refused client is told its least wait when the wait rounds, or told that it has none. -/
theorem wait_least_iff (read : arguments words = .ok args) (exact_ : args.Exact)
    (positive : 0 < args.interval) (nonneg : 0 ≤ args.quantity.toInt)
    (refused : args.interval * (args.maxBurst.toInt + 1) < args.span tatVal now)
    (bounded : args.span tatVal now < 2 ^ 61 * 1000000000) {retryAfter : Duration}
    (retry : retryAfter = if args.interval * args.quantity.toInt ≤
        args.interval * (args.maxBurst.toInt + 1)
      then ⟨args.span tatVal now - args.interval * (args.maxBurst.toInt + 1)⟩
      else Duration.seconds (-1)) :
    (roundedSeconds retryAfter ≠ -1 →
      IsLeast {seconds : Int | ∀ later : OffsetDateTime,
          now.nanos + seconds * 1000000000 ≤ later.nanos →
            AdmitsUnchanged words args.key tatVal later}
        (roundedSeconds retryAfter).toInt) ↔
      (args.interval * args.quantity.toInt ≤ args.interval * (args.maxBurst.toInt + 1) →
        Rounds (args.span tatVal now - args.interval * (args.maxBurst.toInt + 1))) := by
  -- A request beyond the tolerance is told that it has no wait.
  by_cases possible : args.interval * args.quantity.toInt ≤
      args.interval * (args.maxBurst.toInt + 1)
  · rw [if_pos possible] at retry
    have low := exact_.tolerance.1
    have waits : 0 ≤ retryAfter.nanos ∧ retryAfter.nanos < 2 ^ 62 * 1000000000 := by
      rw [retry]
      constructor <;> simp only <;> omega
    have told := roundedSeconds_ne waits.1 waits.2
    -- The seconds that guarantee admission are those that cover the wait.
    have same : {seconds : Int | ∀ later : OffsetDateTime,
          now.nanos + seconds * 1000000000 ≤ later.nanos →
            AdmitsUnchanged words args.key tatVal later} =
        {seconds : Int | retryAfter.nanos ≤ seconds * 1000000000} := by
      ext seconds
      simp only [Set.mem_ofPred_eq, admitsUnchanged_iff read exact_ positive nonneg]
      rw [guaranteed_iff refused possible, retry]
    have least := roundedSeconds_least_iff waits.1 waits.2
    rw [same, least, retry]
    exact ⟨fun rounds _ => rounds (by rwa [retry] at told), fun rounds _ => rounds possible⟩
  · rw [if_neg possible] at retry
    have never : roundedSeconds retryAfter = -1 := by
      rw [retry]
      decide
    exact ⟨fun _ impossible => absurd impossible possible, fun _ told => absurd never told⟩

/-- A client is told the least seconds that cover its reset when the reset rounds. -/
theorem reset_least_iff {resetAfter : Duration} (bounded : resetAfter.nanos < 2 ^ 62 * 1000000000) :
    (0 ≤ resetAfter.nanos →
      IsLeast {seconds : Int | resetAfter.nanos ≤ seconds * 1000000000}
        (roundedSeconds resetAfter).toInt) ↔
      (0 ≤ resetAfter.nanos → Rounds resetAfter.nanos) := by
  -- Both sides only speak about a reset that is not negative.
  constructor <;> intro covered nonneg
  · exact (roundedSeconds_least_iff nonneg bounded).mp (covered nonneg)
  · exact (roundedSeconds_least_iff nonneg bounded).mpr (covered nonneg)

/-- The wait a refused call reports is how far its span exceeds the tolerance. -/
theorem blocked_retryAfter (exact_ : args.Exact) :
    (args.limiter.blocked (args.limiter.increment args.quantity) tatVal now).retryAfter =
      if args.interval * args.quantity.toInt ≤ args.interval * (args.maxBurst.toInt + 1)
      then ⟨args.span tatVal now - args.interval * (args.maxBurst.toInt + 1)⟩
      else Duration.seconds (-1) := by
  -- The difference is what is left of the tolerance, with its sign changed.
  have wait : -args.limiter.diff now
        (RateLimiter.newTat (args.limiter.increment args.quantity) tatVal now) =
      ⟨args.span tatVal now - args.interval * (args.maxBurst.toInt + 1)⟩ := by
    ext
    simp only [RateLimiter.diff, Duration.neg_nanos, OffsetDateTime.sub_nanos,
      OffsetDateTime.sub_span_nanos, exact_.newTat_nanos, exact_.limiter_tolerance]
    omega
  simp only [RateLimiter.blocked, wait, Duration.le_iff, exact_.limiter_increment,
    exact_.limiter_tolerance]

/-- The reset a refused call reports is the lead of the stored arrival time. -/
theorem blocked_ttl :
    (args.limiter.blocked (args.limiter.increment args.quantity) tatVal now).ttl.nanos =
      Arguments.lead tatVal now := by
  -- A missing key stands for now, which is no lead.
  cases tatVal with
  | none => simp [RateLimiter.blocked, readTat, Arguments.lead, storedTat]
  | some value => simp [RateLimiter.blocked, readTat, Arguments.lead, storedTat]

/-- The reset an admitted call reports is its span. -/
theorem granted_ttl (exact_ : args.Exact) :
    (RateLimiter.granted (args.limiter.increment args.quantity) tatVal now).ttl.nanos =
      args.span tatVal now := by
  -- The reset is counted from now to the new arrival time.
  simp only [RateLimiter.granted, OffsetDateTime.sub_nanos, exact_.newTat_nanos]
  omega

/-- Every span a clock can show is far below the saturation of its seconds. -/
theorem span_bounded (exact_ : args.Exact) (representable : now.Representable)
    (tatVal : Option UInt64) :
    args.span tatVal now < 2 ^ 61 * 1000000000 ∧
      Arguments.lead tatVal now < 2 ^ 61 * 1000000000 := by
  -- A stored value and an increment are words, and a clock shows a few thousand years.
  have increment := exact_.increment.2
  have early := representable.1
  cases tatVal with
  | none =>
    simp only [Arguments.span, Arguments.lead, storedTat, Option.map_none, Gcra.due_none,
      Option.elim_none]
    omega
  | some value =>
    have bounded := value.toNat_lt
    simp only [Arguments.span, Arguments.lead, storedTat, Option.map_some, Gcra.due_some,
      Option.elim_some]
    omega

/-- A refused command tells the exact seconds when its wait and its reset round. -/
theorem tellsSeconds_blocked {result : RateLimitResult} (read : arguments words = .ok args)
    (exact_ : args.Exact) (positive : 0 < args.interval) (nonneg : 0 ≤ args.quantity.toInt)
    (representable : now.Representable)
    (refused : args.interval * (args.maxBurst.toInt + 1) < args.span tatVal now)
    (retry : result.retryAfter =
      (args.limiter.blocked (args.limiter.increment args.quantity) tatVal now).retryAfter)
    (reset : result.resetAfter =
      (args.limiter.blocked (args.limiter.increment args.quantity) tatVal now).ttl) :
    TellsSeconds words args.key tatVal now true result ↔ args.ReportsRound tatVal now := by
  -- The wait and the reset are told apart, each by its own rounding.
  have bounded := span_bounded exact_ representable tatVal
  have lead : result.resetAfter.nanos = Arguments.lead tatVal now := by rw [reset, blocked_ttl]
  have waits := wait_least_iff read exact_ positive nonneg refused bounded.1
    (retry.trans (blocked_retryAfter exact_))
  have resets : _ ↔ (0 ≤ result.resetAfter.nanos → Rounds result.resetAfter.nanos) :=
    reset_least_iff (by omega)
  simp only [Arguments.ReportsRound, if_neg (not_le.mpr refused)]
  rw [← waits, ← lead, ← resets]
  constructor
  · intro tells
    exact ⟨tells.wait rfl, tells.reset⟩
  · intro holds
    obtain ⟨wait, covers⟩ := holds
    exact ⟨fun _ => wait, covers⟩

/-- A granted command tells the exact seconds when its span rounds. -/
theorem tellsSeconds_granted {result : RateLimitResult} (exact_ : args.Exact)
    (positive : 0 < args.interval) (nonneg : 0 ≤ args.quantity.toInt)
    (representable : now.Representable)
    (passes : args.span tatVal now ≤ args.interval * (args.maxBurst.toInt + 1))
    (reset : result.resetAfter =
      (RateLimiter.granted (args.limiter.increment args.quantity) tatVal now).ttl) :
    TellsSeconds words args.key tatVal now false result ↔ args.ReportsRound tatVal now := by
  -- A granted command has nothing to wait for, so only its reset is told.
  have bounded := span_bounded exact_ representable tatVal
  have future := (Arguments.span_nonneg positive nonneg tatVal now).1
  have span : result.resetAfter.nanos = args.span tatVal now := by rw [reset, granted_ttl exact_]
  have resets : _ ↔ (0 ≤ result.resetAfter.nanos → Rounds result.resetAfter.nanos) :=
    reset_least_iff (by omega)
  simp only [Arguments.ReportsRound, if_pos passes]
  rw [span] at resets
  constructor
  · intro tells
    have covers := tells.reset
    rw [span] at covers
    exact resets.mp covers future
  · intro rounds
    refine ⟨fun impossible => absurd impossible Bool.false_ne_true, ?_⟩
    rw [span]
    exact resets.mpr fun _ => rounds

/-- One command on a keyspace tells the exact seconds exactly when the times it reports round. -/
theorem throttle_tellsSeconds {keyspace : Keyspace} (read : arguments words = .ok args)
    (exact_ : args.Exact) (positive : 0 < args.interval) (nonneg : 0 ≤ args.quantity.toInt)
    (representable : keyspace.clock.Representable)
    (reads : keyspace.tatVal args.key = some (.ok tatVal)) :
    ∃ throttled result,
      (keyspace.rateLimit args.limiter args.key args.quantity).1 =
        some (.ok (throttled, result)) ∧
      (keyspace.throttle words).1 = some (.ok ()) ∧
      (keyspace.throttle words).2.replies = keyspace.replies ++ replies throttled result ∧
      (TellsSeconds words args.key tatVal keyspace.clock throttled result ↔
        args.ReportsRound tatVal keyspace.clock) := by
  -- Whether the request is refused decides which times are reported.
  by_cases blocks : args.limiter.Blocks (args.limiter.increment args.quantity) tatVal keyspace.clock
  · have refused := (exact_.blocks_iff tatVal keyspace.clock).mp blocks
    rw [rateLimit_blocked positive.ne' reads blocks,
      throttle_blocked read positive.ne' reads blocks]
    refine ⟨true, _, rfl, rfl, rfl, ?_⟩
    exact tellsSeconds_blocked read exact_ positive nonneg representable refused rfl rfl
  · have passes := not_lt.mp (mt (exact_.blocks_iff tatVal keyspace.clock).mpr blocks)
    have future := (Arguments.span_nonneg positive nonneg tatVal keyspace.clock).2
    have accepted : -1 ≤ args.millis tatVal keyspace.clock := by omega
    rw [rateLimit_accepted exact_ positive.ne' reads blocks accepted,
      throttle_granted read exact_ positive.ne' reads blocks accepted]
    refine ⟨false, _, rfl, rfl, rfl, ?_⟩
    exact tellsSeconds_granted exact_ positive nonneg representable passes rfl

end Seconds

/--
A client is told the exact seconds exactly when the times they stand for have no fraction of a
second below a millisecond.
-/
theorem tellsSeconds_iff {σ : Type} (server : Server σ) (state : σ) {words : List String}
    {args : Arguments} {tatVal : Option UInt64} (read : arguments words = .ok args)
    (exact_ : args.Exact) (positive : 0 < args.interval) (nonneg : 0 ≤ args.quantity.toInt)
    (representable : (server.view state).clock.Representable)
    (reads : (server.view state).tatVal args.key = some (.ok tatVal)) :
    let keyspace := server.view state
    ∃ throttled result,
      (keyspace.rateLimit args.limiter args.key args.quantity).1 =
        some (.ok (throttled, result)) ∧
      (server.throttle state words).1 = some (.ok ()) ∧
      (server.view (server.throttle state words).2).replies =
        keyspace.replies ++ replies throttled result ∧
      (TellsSeconds words args.key tatVal keyspace.clock throttled result ↔
        args.ReportsRound tatVal keyspace.clock) := by
  -- Any server shows what its keyspace does.
  have viewed := server.throttle_view state words
  have told := throttle_tellsSeconds read exact_ positive nonneg representable reads
  rw [viewed] at told
  exact told

/-- The documented command on a fresh key replies with whole seconds. -/
theorem tellsSeconds_iff_readme :
    ∃ throttled result,
      (Keyspace.empty.rateLimit readmeArguments.limiter "user123" 3).1 =
        some (.ok (throttled, result)) ∧
      (Keyspace.empty.throttle readmeWords).1 = some (.ok ()) ∧
      (Keyspace.empty.throttle readmeWords).2.replies = [] ++ replies throttled result ∧
      (TellsSeconds readmeWords "user123" none ⟨0⟩ throttled result ↔
        readmeArguments.ReportsRound none ⟨0⟩) :=
  -- The clock shows the epoch, and the key is absent.
  tellsSeconds_iff Server.keyspace Keyspace.empty
    (show arguments readmeWords = .ok readmeArguments by decide) ⟨by decide, by decide⟩
    (by decide) (by decide) ⟨by decide, by decide⟩ (tatVal_of_absent rfl)

/-- A wait of half a millisecond is told as no wait, and a client that obeys it is refused again. -/
theorem obedient_client_refused :
    let words := ["cl.throttle", "user123", "0", "1", "1"]
    let first := (Keyspace.empty.throttle words).2
    let second := ((first.wait ⟨999500000⟩).throttle words).2
    let third := ((second.wait ⟨999500000⟩).throttle words).2
    second.replies.drop 6 = [.array 5, .integer 1, .integer 1, .integer 0, .integer 0, .integer 0] ∧
      second.flag third = some (.integer 1) := by
  -- The fraction of a millisecond is cut off from the wait.
  decide

end RedisCell
