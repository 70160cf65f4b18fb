import RedisCell.Cell.QuotientLaws
import RedisCell.Throttle.Exactness
import RedisCell.Throttle.Grammar

/-! When the quotients of a command, taken in floating point, are the exact ones. -/

namespace RedisCell

open Interaction

/-- The command whose quotients are exact. -/
def throttleCommandExact : Command := ⟨ThrottleCommand.name, ThrottleCommand.runExact⟩

/-- Two commands agree on arguments when their runs do. -/
theorem Command.harness_agrees {σ : Type} {handle : Handler RedisOp RedisOp.Answer σ} {state : σ}
    {command command' : Command} {argv : List ByteArray}
    (agrees : ∀ args, parseArgs argv = .ok args →
      Program.Agrees handle state (command.run args).run (command'.run args).run) :
    Program.Agrees handle state (command.harness argv) (command'.harness argv) := by
  unfold harness
  -- Neither command is run on arguments that cannot be read.
  cases parsed : parseArgs argv with
  | error error => exact ⟨rfl, rfl⟩
  | ok args => exact (agrees args parsed).bind fun _ _ _ => ⟨rfl, rfl⟩

namespace ThrottleCommand

/-- The limiter of a period of at most nine million seconds is configured exactly. -/
theorem Arguments.limiterExact_eq {args : Arguments}
    (short : args.period.toInt.natAbs ≤ 9007199) : args.limiterExact = args.limiter := by
  have bits : (Duration.seconds args.period).wholeNanoseconds.natAbs < 2 ^ 53 := by
    -- The period is counted in nanoseconds before it is divided.
    rw [Duration.wholeNanoseconds, Duration.seconds_nanos, Int.natAbs_mul]
    show args.period.toInt.natAbs * 1000000000 < 2 ^ 53
    omega
  rw [limiterExact, ← Rate.perPeriod_eq bits]
  rfl

/--
A command is moderate when its period is at most 9007199 seconds, and what it leaves of its tolerance
has at most fifty-three bits of microseconds.
-/
structure Arguments.Moderate {σ : Type} (handle : Handler RedisOp RedisOp.Answer σ) (state : σ)
    (args : Arguments) : Prop where
  short : args.period.toInt.natAbs ≤ 9007199
  countable : ∀ settled state', (InternalRedisStore.carryOut (args.limiter.attempts args.key
    (args.limiter.increment args.quantity) maxCasAttempts)).run.run handle state =
      (some (.ok settled), state') → args.limiter.Countable settled.ttl

end ThrottleCommand

section Agreement

variable {σ : Type} {handle : Handler RedisOp RedisOp.Answer σ} {state state' : σ}
  {limiter : RateLimiter} {key : String} {quantity : Int64}

/-- A call that returns a result reports what its attempts have settled. -/
theorem rateLimit_settled {answer : Bool × RateLimitResult}
    (returned : (InternalRedisStore.carryOut (limiter.rateLimit key quantity)).run.run handle state =
      (some (.ok answer), state')) :
    ∃ settled, (InternalRedisStore.carryOut (limiter.attempts key (limiter.increment quantity)
        maxCasAttempts)).run.run handle state = (some (.ok settled), state') ∧
      answer = limiter.report settled := by
  unfold RateLimiter.rateLimit at returned
  split at returned
  · -- A zero rate is an error.
    cases returned
  · rw [InternalRedisStore.carryOut_bind] at returned
    rcases attempted : (InternalRedisStore.carryOut (limiter.attempts key
      (limiter.increment quantity) maxCasAttempts)).run.run handle state with
        ⟨_ | error | settled, ended⟩
    · rw [Program.run_bind_abort attempted] at returned
      cases returned
    · rw [Program.run_bind_error attempted] at returned
      cases returned
    · rw [Program.run_bind_ok attempted] at returned
      cases returned
      exact ⟨settled, rfl, rfl⟩

end Agreement

/--
Whatever the server answers, a moderate command asks the same and comes to the same end when its two
quotients are taken exactly.
-/
theorem throttleCommandExact_agrees {σ : Type} (handle : Handler RedisOp RedisOp.Answer σ)
    (state : σ) (argv : List ByteArray)
    (moderate : ∀ words args, parseArgs argv = .ok words →
      ThrottleCommand.arguments words = .ok args → args.Moderate handle state) :
    (throttleCommand.harness argv).run handle state =
        (throttleCommandExact.harness argv).run handle state ∧
      (throttleCommand.harness argv).asked handle state =
        (throttleCommandExact.harness argv).asked handle state := by
  -- Both commands are followed together, from their words to their reply.
  suffices agrees : Program.Agrees handle state (throttleCommand.harness argv)
      (throttleCommandExact.harness argv) from ⟨agrees.run, agrees.asked⟩
  refine Command.harness_agrees fun words parsed => ?_
  have read : ∀ args state', (ExceptT.mk (pure (ThrottleCommand.arguments words)) :
      RedisM _).run.run handle state = (some (.ok args), state') →
        ThrottleCommand.arguments words = .ok args ∧ state = state' := fun args state' returned =>
    ⟨Option.some.inj (Prod.mk.inj returned).1, (Prod.mk.inj returned).2⟩
  -- The arguments are read without a quotient, and the first one configures the limiter.
  refine Program.Agrees.except_bind ⟨rfl, rfl⟩ fun args state' returned => ?_
  obtain ⟨given, rfl⟩ := read args state' returned
  have ordinary := moderate words args parsed given
  rw [ThrottleCommand.Arguments.limiterExact_eq ordinary.short]
  -- The other one is a part of the report.
  refine Program.Agrees.except_bind ⟨rfl, rfl⟩ fun answer state' returned => ?_
  obtain ⟨settled, attempted, rfl⟩ := rateLimit_settled returned
  have same := RateLimiter.exactly_report (Rate.perPeriod_fits _ _)
    (ordinary.countable settled state' attempted)
  show Program.Agrees handle state' _ (ThrottleCommand.reply (args.limiter.report settled).1
    (args.limiter.exactly (args.limiter.report settled).2)).run
  rw [same]
  exact ⟨rfl, rfl⟩

open ThrottleCommand in
/-- The documented command is moderate on an empty keyspace. -/
theorem throttleCommandExact_agrees_readme :
    let argv := readmeWords.map String.toByteArray
    (throttleCommand.harness argv).run Keyspace.handle Keyspace.empty =
        (throttleCommandExact.harness argv).run Keyspace.handle Keyspace.empty ∧
      (throttleCommand.harness argv).asked Keyspace.handle Keyspace.empty =
        (throttleCommandExact.harness argv).asked Keyspace.handle Keyspace.empty := by
  -- The words of the documented command fix what it asks for.
  refine throttleCommandExact_agrees _ _ _ fun words args parsed given => ?_
  obtain rfl : words = readmeWords :=
    Except.ok.inj (parsed.symm.trans (parseArgs_words readmeWords))
  have read : arguments readmeWords = .ok readmeArguments := by decide
  obtain rfl : args = readmeArguments := Except.ok.inj (given.symm.trans read)
  refine ⟨by decide, fun settled state' returned => ?_⟩
  -- Three tokens of two seconds each are taken from a key that is new.
  have ends : ((InternalRedisStore.carryOut (readmeArguments.limiter.attempts readmeArguments.key
      (readmeArguments.limiter.increment readmeArguments.quantity) maxCasAttempts)).run.run
        Keyspace.handle Keyspace.empty).1 = some (.ok ⟨false, ⟨6000000000⟩, ⟨-1000000000⟩⟩) := by
    rfl
  rw [returned] at ends
  cases ends
  unfold RateLimiter.Countable
  decide

end RedisCell
