import RedisCell.ThrottleLaws
import RedisCell.Cell.Run

/-! The arithmetic of a command whose products fit: what it is refused for, and what it charges. -/

namespace RedisCell

open ThrottleCommand Keyspace

/-- The documented command, with a quantity of three. -/
def readmeWords : List String := ["cl.throttle", "user123", "15", "30", "60", "3"]

/-- What the documented command asks for. -/
def readmeArguments : Arguments := ⟨"user123", 15, 30, 60, 3⟩

/-- The time between two tokens of the rate a command names, as its limiter computes it. -/
def ThrottleCommand.Arguments.interval (args : Arguments) : Int :=
  (Rate.perPeriod args.count (Duration.seconds args.period)).period.nanos

/-- The products a command computes from its arguments fit their words. -/
structure ThrottleCommand.Arguments.Exact (args : Arguments) : Prop where
  tolerance : FitsI64 (args.interval * (args.maxBurst.toInt + 1))
  increment : FitsI64 (args.interval * args.quantity.toInt)

/-- How far the arrival time of a request lies ahead of the instant it is made at. -/
def ThrottleCommand.Arguments.span (args : Arguments) (tatVal : Option UInt64)
    (now : OffsetDateTime) : Int :=
  Gcra.due (storedTat tatVal) now.nanos - now.nanos + args.interval * args.quantity.toInt

/-- The whole milliseconds of the span, truncated toward zero. -/
def ThrottleCommand.Arguments.millis (args : Arguments) (tatVal : Option UInt64)
    (now : OffsetDateTime) : Int := (args.span tatVal now).tdiv 1000000

/-- The entry a command writes when it passes. -/
def ThrottleCommand.Arguments.written (args : Arguments) (tatVal : Option UInt64)
    (now : OffsetDateTime) : Entry where
  content := .text (u64ToString (UInt64.ofInt (now.nanos + args.span tatVal now))).toByteArray
  expiry :=
    if 0 ≤ args.millis tatVal now then
      some (now + Duration.new 0 (args.millis tatVal now * 1000000))
    else none

namespace ThrottleCommand.Arguments

variable {args : Arguments}

/-- The limiter of such a command has its tolerance, unwrapped. -/
theorem Exact.limiter_tolerance (exact_ : args.Exact) :
    args.limiter.delayVariationTolerance.nanos = args.interval * (args.maxBurst.toInt + 1) := by
  -- The product fits, so it does not wrap.
  rw [limiter, RateLimiter.new_tolerance]
  exact toInt_ofInt_of_fits exact_.tolerance

/-- The limiter of such a command charges its increment, unwrapped. -/
theorem Exact.limiter_increment (exact_ : args.Exact) :
    (args.limiter.increment args.quantity).nanos = args.interval * args.quantity.toInt := by
  -- The product fits, so it does not wrap.
  rw [RateLimiter.increment_nanos]
  exact toInt_ofInt_of_fits exact_.increment

/-- A positive rate and a quantity that is not negative never move an arrival time back. -/
theorem span_nonneg (positive : 0 < args.interval) (nonneg : 0 ≤ args.quantity.toInt)
    (tatVal : Option UInt64) (now : OffsetDateTime) :
    0 ≤ args.span tatVal now ∧ 0 ≤ args.millis tatVal now := by
  -- The schedule is never behind now, and the increment is not negative.
  have ahead := Gcra.le_due (storedTat tatVal) now.nanos
  have increment := mul_nonneg positive.le nonneg
  have future : 0 ≤ args.span tatVal now := by
    simp only [span]
    omega
  exact ⟨future, Int.tdiv_nonneg future (by omega)⟩

/-- The arrival time a command computes lies its span ahead of now. -/
theorem Exact.newTat_nanos (exact_ : args.Exact) (tatVal : Option UInt64) (now : OffsetDateTime) :
    (RateLimiter.newTat (args.limiter.increment args.quantity) tatVal now).nanos =
      now.nanos + args.span tatVal now := by
  -- The span is counted from now, and so is the time.
  rw [RedisCell.newTat_nanos, exact_.limiter_increment, span]
  omega

/-- A command is refused when its span exceeds the tolerance. -/
theorem Exact.blocks_iff (exact_ : args.Exact) (tatVal : Option UInt64) (now : OffsetDateTime) :
    args.limiter.Blocks (args.limiter.increment args.quantity) tatVal now ↔
      args.interval * (args.maxBurst.toInt + 1) < args.span tatVal now := by
  -- The limiter compares the new time with now and the tolerance.
  rw [RateLimiter.blocks_iff, exact_.limiter_tolerance, exact_.newTat_nanos]
  omega

/-- The span of a command that passes fits its word. -/
theorem Exact.span_fits (exact_ : args.Exact) {tatVal : Option UInt64} {now : OffsetDateTime}
    (passes : ¬args.limiter.Blocks (args.limiter.increment args.quantity) tatVal now) :
    FitsI64 (RateLimiter.newTat (args.limiter.increment args.quantity) tatVal now - now).nanos := by
  -- A request that passes ends within the tolerance, which fits.
  have ahead := Gcra.le_due (storedTat tatVal) now.nanos
  have low := exact_.increment.1
  have high := exact_.tolerance.2
  rw [exact_.blocks_iff] at passes
  rw [OffsetDateTime.sub_nanos, exact_.newTat_nanos]
  simp only [span] at passes ⊢
  constructor <;> omega

end ThrottleCommand.Arguments

namespace Keyspace

variable {keyspace : Keyspace} {words : List String} {args : Arguments} {tatVal : Option UInt64}

/-- A command of a zero rate fails and changes nothing. -/
theorem throttle_zero (read : arguments words = .ok args) (zero : args.interval = 0) :
    keyspace.throttle words =
      (some (.error (.generic "Zero rates are not supported")), keyspace) :=
  throttle_error read (rateLimit_zero zero)

/-- A refused command only replies. -/
theorem throttle_blocked (read : arguments words = .ok args) (nonzero : args.interval ≠ 0)
    (reads : keyspace.tatVal args.key = some (.ok tatVal))
    (blocks : args.limiter.Blocks (args.limiter.increment args.quantity) tatVal keyspace.clock) :
    keyspace.throttle words = (some (.ok ()), keyspace.answered true
      (args.limiter.report (args.limiter.blocked (args.limiter.increment args.quantity) tatVal
        keyspace.clock)).2) :=
  throttle_ok read (rateLimit_blocked nonzero reads blocks)

/-- What a command that passes charges its key with. -/
theorem charged_written (exact_ : args.Exact)
    (passes : ¬args.limiter.Blocks (args.limiter.increment args.quantity) tatVal keyspace.clock) :
    let new := RateLimiter.newTat (args.limiter.increment args.quantity) tatVal keyspace.clock
    keyspace.charged (nanoseconds new) (new - keyspace.clock) =
        args.written tatVal keyspace.clock ∧
      (expireMillis (new - keyspace.clock)).toInt = args.millis tatVal keyspace.clock := by
  -- Both the value and the expiry are computed from the one span.
  intro new
  have finish : new.nanos = keyspace.clock.nanos + args.span tatVal keyspace.clock :=
    exact_.newTat_nanos tatVal keyspace.clock
  have millis : (expireMillis (new - keyspace.clock)).toInt = args.millis tatVal keyspace.clock := by
    rw [expireMillis_toInt (exact_.span_fits passes), OffsetDateTime.sub_nanos, finish,
      add_sub_cancel_left]
    rfl
  refine ⟨?_, millis⟩
  rw [charged, deadline, millis, nanoseconds_eq, finish]
  rfl

/-- A call whose expiry is accepted is granted. -/
theorem rateLimit_accepted (exact_ : args.Exact) (nonzero : args.interval ≠ 0)
    (reads : keyspace.tatVal args.key = some (.ok tatVal))
    (passes : ¬args.limiter.Blocks (args.limiter.increment args.quantity) tatVal keyspace.clock)
    (accepted : -1 ≤ args.millis tatVal keyspace.clock) :
    keyspace.rateLimit args.limiter args.key args.quantity =
      (some (.ok (args.limiter.report (RateLimiter.granted (args.limiter.increment args.quantity)
          tatVal keyspace.clock))),
        keyspace.put args.key (args.written tatVal keyspace.clock)) := by
  -- A grant asks for an expiry that is neither negative nor too long.
  obtain ⟨written, millis⟩ := charged_written exact_ passes
  have called := rateLimit_passed nonzero reads passes
  rw [← millis] at accepted
  simp only [chargeAnswer, if_pos accepted, written] at called
  exact called

/-- A command whose expiry is accepted replies that it is not limited. -/
theorem throttle_granted (read : arguments words = .ok args) (exact_ : args.Exact)
    (nonzero : args.interval ≠ 0) (reads : keyspace.tatVal args.key = some (.ok tatVal))
    (passes : ¬args.limiter.Blocks (args.limiter.increment args.quantity) tatVal keyspace.clock)
    (accepted : -1 ≤ args.millis tatVal keyspace.clock) :
    keyspace.throttle words = (some (.ok ()),
      (keyspace.put args.key (args.written tatVal keyspace.clock)).answered false
        (args.limiter.report (RateLimiter.granted (args.limiter.increment args.quantity) tatVal
          keyspace.clock)).2) :=
  throttle_ok read (rateLimit_accepted exact_ nonzero reads passes accepted)

/-- A command whose expiry is refused fails after it has written. -/
theorem throttle_unexpired (read : arguments words = .ok args) (exact_ : args.Exact)
    (nonzero : args.interval ≠ 0) (reads : keyspace.tatVal args.key = some (.ok tatVal))
    (passes : ¬args.limiter.Blocks (args.limiter.increment args.quantity) tatVal keyspace.clock)
    (refused : ¬-1 ≤ args.millis tatVal keyspace.clock) :
    keyspace.throttle words = (some (.error (.generic "Error while setting key expire")),
      keyspace.put args.key (args.written tatVal keyspace.clock)) := by
  obtain ⟨written, millis⟩ := charged_written exact_ passes
  -- The value is written before the server refuses its expiry.
  have called := rateLimit_passed nonzero reads passes
  rw [← millis] at refused
  simp only [chargeAnswer, if_neg refused, written] at called
  exact throttle_error read called

end Keyspace

end RedisCell
