import RedisCell.Cell.Quotients
import RedisCell.Cell.RedisWrites
import RedisCell.Throttle.Span

/-! When a command whose quotients are exact computes its limiter exactly, or is rejected. -/

namespace RedisCell

open Interaction Keyspace ThrottleCommand

namespace ThrottleCommand

/-- The limiter of a command, whose quotient is exact. -/
def Arguments.limiterExact (args : Arguments) : RateLimiter :=
  RateLimiter.new ⟨args.maxBurst, Rate.perPeriodExact args.count (Duration.seconds args.period)⟩

/-- `ThrottleCommand::run`, whose two quotients are exact. -/
def runExact (args : List String) : RedisM Unit := do
  let args ← ExceptT.mk (pure (arguments args))
  let (throttled, result) ←
    InternalRedisStore.carryOut (args.limiterExact.rateLimit args.key args.quantity)
  reply throttled (args.limiterExact.exactly result)

end ThrottleCommand

namespace ThrottleCommand.Arguments

/-- The nanoseconds between two tokens, which no word limits. -/
def quotient (args : Arguments) : Int := (args.period.toInt * 1000000000).tdiv args.count.toInt

/-- The limiter of a command has the exact parameters its arguments stand for. -/
structure ComputesExactly (args : Arguments) : Prop where
  limit : args.limiterExact.limit.toInt = args.maxBurst.toInt + 1
  interval : args.limiterExact.emissionInterval.nanos = args.quotient
  tolerance : args.limiterExact.delayVariationTolerance.nanos =
    args.quotient * (args.maxBurst.toInt + 1)
  increment : (args.limiterExact.increment args.quantity).nanos =
    args.quotient * args.quantity.toInt

/-- Every number a command computes from its arguments fits its word. -/
structure Fits (args : Arguments) : Prop where
  limit : FitsI64 (args.maxBurst.toInt + 1)
  interval : FitsI64 args.quotient
  tolerance : FitsI64 (args.quotient * (args.maxBurst.toInt + 1))
  increment : FitsI64 (args.quotient * args.quantity.toInt)

variable {args : Arguments}

/-- The interval of a command is its quotient, moved to the nearest end of a word. -/
theorem intervalExact_eq (args : Arguments) :
    args.limiterExact.emissionInterval.nanos = (Int64.ofIntClamp args.quotient).toInt := by
  -- The exact interval is the quotient, cast to a word.
  show (Rate.perPeriodExact args.count (Duration.seconds args.period)).period.nanos = _
  rw [Rate.perPeriodExact]
  split
  · -- A rate without actions or without time has no quotient either.
    rename_i vanishes
    have quotient : args.quotient = 0 := by
      rw [Arguments.quotient]
      rcases vanishes with zero | zero
      · rw [zero]
        exact Int.tdiv_zero _
      · have period : args.period.toInt * 1000000000 = 0 := by
          rw [← Duration.seconds_nanos]
          exact zero
        rw [period]
        exact Int.zero_tdiv _
    rw [quotient]
    rfl
  · rename_i present
    have someCount : args.count.toInt ≠ 0 := fun zero =>
      present (Or.inl (Int64.toInt_inj.mp zero))
    rw [quotientAsI64, if_neg someCount]
    show _ = (Int64.ofIntClamp ((args.period.toInt * 1000000000).tdiv args.count.toInt)).toInt
    rw [← Duration.seconds_nanos]
    rfl

/-- A word is zero only for a quotient that is. -/
theorem intervalExact_eq_zero_iff (args : Arguments) :
    args.limiterExact.emissionInterval.nanos = 0 ↔ args.quotient = 0 := by
  -- Saturation moves no quotient to zero.
  rw [intervalExact_eq, toInt_ofIntClamp]
  omega

/-- A limiter is exact when everything it computes fits. -/
theorem computesExactly_iff (args : Arguments) : args.ComputesExactly ↔ args.Fits := by
  -- Each product is exact when it fits, and what is counted from it is exact then too.
  have limit : args.limiterExact.limit.toInt = args.maxBurst.toInt + 1 ↔
      FitsI64 (args.maxBurst.toInt + 1) := toInt_add_eq_iff args.maxBurst 1
  have interval : args.limiterExact.emissionInterval.nanos = args.quotient ↔
      FitsI64 args.quotient := by
    rw [intervalExact_eq]
    exact toInt_ofIntClamp_eq_iff
  have tolerance : args.limiterExact.delayVariationTolerance.nanos =
      (Int64.ofInt (args.limiterExact.emissionInterval.nanos * (args.maxBurst.toInt + 1))).toInt :=
    RateLimiter.new_tolerance _
  have increment : (args.limiterExact.increment args.quantity).nanos =
      (Int64.ofInt (args.limiterExact.emissionInterval.nanos * args.quantity.toInt)).toInt :=
    RateLimiter.increment_nanos args.limiterExact args.quantity
  -- Once the interval is exact, each product is the cast of the exact one.
  constructor
  · intro computes
    rw [computes.interval] at tolerance increment
    refine ⟨limit.mp computes.limit, interval.mp computes.interval, ?_, ?_⟩
    · exact toInt_ofInt_eq_iff.mp (tolerance.symm.trans computes.tolerance)
    · exact toInt_ofInt_eq_iff.mp (increment.symm.trans computes.increment)
  · intro fits
    have same := interval.mpr fits.interval
    rw [same] at tolerance increment
    refine ⟨limit.mpr fits.limit, same, ?_, ?_⟩
    · exact tolerance.trans (toInt_ofInt_of_fits fits.tolerance)
    · exact increment.trans (toInt_ofInt_of_fits fits.increment)

end ThrottleCommand.Arguments

/-- A program fails without having written anything. -/
def FailsSilently {σ : Type} (handle : Handler RedisOp RedisOp.Answer σ) (state : σ)
    (program : RedisM Unit) : Prop :=
  (∃ error, (program.run.run handle state).1 = some (.error error)) ∧
    ∀ op ∈ program.run.asked handle state, ¬op.Writes

/-- A command whose quotients are exact fails without having written anything. -/
def Server.Rejects {σ : Type} (server : Server σ) (state : σ) (words : List String) : Prop :=
  FailsSilently server.handle state (ThrottleCommand.runExact words)

/-- A server rejects a command when its keyspace does. -/
theorem Server.rejects_view {σ : Type} (server : Server σ) (state : σ) (words : List String) :
    Server.keyspace.Rejects (server.view state) words ↔ server.Rejects state words := by
  -- A server answers as its keyspace does, and so is asked the same operations.
  have viewed := server.documented.run (ThrottleCommand.runExact words).run state
  have asked := server.documented.asked (ThrottleCommand.runExact words).run state
  show (∃ error, ((ThrottleCommand.runExact words).run.run Keyspace.handle
      (server.view state)).1 = some (.error error)) ∧
    (∀ op ∈ (ThrottleCommand.runExact words).run.asked Keyspace.handle (server.view state),
      ¬op.Writes) ↔ _
  rw [viewed, asked]
  rfl

namespace Keyspace

variable {keyspace : Keyspace} {words : List String} {args : Arguments}

/-- A key is there, but its bytes are not a text. -/
def Undecodable (keyspace : Keyspace) (key : String) : Prop :=
  keyspace.live key ≠ none ∧ ¬(keyspace.bytes key).IsValidUTF8

/-- A limiter gets an error from exactly the keys that are not text. -/
theorem tatVal_error_iff (keyspace : Keyspace) (key : String) :
    (∃ error, keyspace.tatVal key = some (.error error)) ↔ keyspace.Undecodable key := by
  -- A key that decodes yields a value or a panic, and an absent one yields nothing.
  have decodes := fromUtf8_isOk_iff (keyspace.bytes key)
  unfold tatVal Undecodable
  cases keyspace.live key with
  | none => simp
  | some entry =>
    cases decoded : fromUtf8 (keyspace.bytes key) with
    | error error =>
      rw [decoded] at decodes
      simpa using decodes
    | ok text =>
      have valid := decodes.mp ⟨text, decoded⟩
      cases parsed : parseU64 text <;> simp [valid, parsed]

/--
A call that is answered without fail is rejected exactly for a zero rate, and on a key that is not
text.
-/
theorem failsSilently_call_iff {limiter : RateLimiter} {key : String} {quantity : Int64}
    {tell : Bool × RateLimitResult → RedisM Unit}
    (tells : ∀ answer keyspace, ((tell answer).run.run Keyspace.handle keyspace).1 =
      some (.ok ())) (keyspace : Keyspace) :
    FailsSilently Keyspace.handle keyspace
        (InternalRedisStore.carryOut (limiter.rateLimit key quantity) >>= tell) ↔
      limiter.emissionInterval.nanos = 0 ∨ keyspace.Undecodable key := by
  rw [← tatVal_error_iff]
  by_cases zero : limiter.emissionInterval.nanos = 0
  · -- Nothing is asked before the rate is checked.
    have failed : keyspace.rateLimit limiter key quantity = _ := rateLimit_zero zero
    rw [rateLimit] at failed
    refine ⟨fun _ => Or.inl zero, fun _ => ⟨⟨_, congrArg Prod.fst
      (Program.run_bind_error failed)⟩, ?_⟩⟩
    rw [RateLimiter.rateLimit_zero zero]
    intro op member
    cases member
  simp only [zero, false_or]
  cases reads : keyspace.tatVal key with
  | none =>
    -- A panic is no error.
    have aborted : keyspace.rateLimit limiter key quantity = _ := rateLimit_abort zero reads
    rw [rateLimit] at aborted
    rw [FailsSilently, Program.run_bind_abort aborted]
    simp
  | some answer =>
    cases answer with
    | error error =>
      have unread : keyspace.rateLimit limiter key quantity = _ := rateLimit_unread zero reads
      rw [rateLimit] at unread
      refine ⟨fun _ => ⟨error, rfl⟩, fun _ => ⟨⟨error, ?_⟩, ?_⟩⟩
      · rw [Program.run_bind_error unread]
      · rw [Program.asked_bind_error unread]
        exact rateLimit_unread_asked zero reads
    | ok tatVal =>
      constructor
      · intro rejected
        obtain ⟨⟨error, failed⟩, silent⟩ := rejected
        -- A refusal is a success, and a charge writes whether or not it succeeds.
        by_cases blocks : limiter.Blocks (limiter.increment quantity) tatVal keyspace.clock
        · have refused := rateLimit_blocked zero reads blocks
          rw [rateLimit] at refused
          rw [Program.run_bind_ok refused, tells] at failed
          cases failed
        · obtain ⟨op, member, writes⟩ := rateLimit_passed_asked zero reads blocks
          exact absurd writes (silent op (Program.mem_asked_bind member))
      · intro holds
        obtain ⟨error, impossible⟩ := holds
        cases impossible

/-- A keyspace rejects exactly the commands of a zero rate and of keys that are not text. -/
theorem rejects_iff (read : arguments words = .ok args) :
    Server.keyspace.Rejects keyspace words ↔
      args.limiterExact.emissionInterval.nanos = 0 ∨ keyspace.Undecodable args.key := by
  -- The arguments are read before the store is asked, and the reply never fails.
  have program : FailsSilently Keyspace.handle keyspace
      (InternalRedisStore.carryOut (args.limiterExact.rateLimit args.key args.quantity) >>=
        fun answer => ThrottleCommand.reply answer.1 (args.limiterExact.exactly answer.2)) ↔ _ :=
    failsSilently_call_iff (fun answer keyspace => congrArg Prod.fst (run_reply keyspace _ _)) _
  rw [← program]
  show FailsSilently Keyspace.handle keyspace (ThrottleCommand.runExact words) ↔ _
  rw [ThrottleCommand.runExact, read]
  rfl

end Keyspace

/--
A command is exact or rejected exactly when its rate vanishes, or its key is not text, or all that
it computes fits.
-/
theorem exactOrRejected_iff {σ : Type} (server : Server σ) (state : σ) {words : List String}
    {args : Arguments} (read : arguments words = .ok args) :
    server.Rejects state words ∨ args.ComputesExactly ↔
      args.quotient = 0 ∨ (server.view state).Undecodable args.key ∨ args.Fits := by
  -- Rejection and exactness are characterised one by one.
  rw [← server.rejects_view, rejects_iff read, args.intervalExact_eq_zero_iff,
    args.computesExactly_iff, or_assoc]

/-- The documented command is computed exactly. -/
theorem exactOrRejected_iff_readme :
    Server.keyspace.Rejects Keyspace.empty readmeWords ∨ readmeArguments.ComputesExactly ↔
      readmeArguments.quotient = 0 ∨ Keyspace.empty.Undecodable "user123" ∨
        readmeArguments.Fits :=
  -- The words are read as the documented arguments.
  exactOrRejected_iff Server.keyspace Keyspace.empty
    (show arguments readmeWords = .ok readmeArguments by decide)

/-- A quantity far beyond the burst costs nothing once its product has wrapped, and is admitted. -/
theorem wrapped_increment_admits :
    let words := ["cl.throttle", "user123", "15", "30", "60", "18014398509481984"]
    let args : Arguments := ⟨"user123", 15, 30, 60, 18014398509481984⟩
    arguments words = .ok args ∧
      (Keyspace.empty.throttle words).1 = some (.ok ()) ∧
      (Keyspace.empty.throttle words).2.replies.take 2 = [.array 5, .integer 0] ∧
      (args.limiter.increment args.quantity).nanos = 0 ∧
      args.quotient * args.quantity.toInt = 36028797018963968000000000 ∧
      ¬(Server.keyspace.Rejects Keyspace.empty words ∨ args.ComputesExactly) := by
  -- The words are read, and the increment of so many tokens wraps to nothing.
  intro words args
  have read : arguments words = .ok args := by decide
  have wrapped : (args.limiter.increment args.quantity).nanos = 0 := by decide
  have wrapped' : (args.limiterExact.increment args.quantity).nanos = 0 := by decide
  have product : args.quotient * args.quantity.toInt = 36028797018963968000000000 := by decide
  have accepted : ((ThrottleCommand.runExact words).run.run Keyspace.handle Keyspace.empty).1 =
      some (.ok ()) := by decide
  -- The command is not rejected, and the increment is not exact.
  refine ⟨read, by decide, by decide, wrapped, product, ?_⟩
  intro holds
  rcases holds with ⟨⟨error, failed⟩, _⟩ | computes
  · have impossible := accepted.symm.trans failed
    cases impossible
  · have exact_ := computes.increment
    rw [wrapped', product] at exact_
    cases exact_

end RedisCell
