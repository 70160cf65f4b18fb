import RedisCell.Redis.Command
import RedisCell.Cell.RedisStore

/-! The command `cl.throttle`. -/

namespace RedisCell

namespace ThrottleCommand

/-- `ThrottleCommand::name`. -/
def name : String := "cl.throttle"

/-- `parse_i64`, whose error quotes the argument. -/
def parseArgument (arg : String) : Except CellError Int64 :=
  (parseI64 arg).mapError fun _ => .generic ("Couldn't parse as integer: " ++ arg)

/-- The arguments of one command, after its own name. -/
structure Arguments where
  key : String
  maxBurst : Int64
  count : Int64
  period : Int64
  quantity : Int64
  deriving DecidableEq, Repr

/-- Read the arguments, where the quantity may be left out and is one then. -/
def arguments : List String → Except CellError Arguments
  | [_, key, maxBurst, count, period] => do
    let maxBurst ← parseArgument maxBurst
    let count ← parseArgument count
    let period ← parseArgument period
    return ⟨key, maxBurst, count, period, 1⟩
  | [_, key, maxBurst, count, period, quantity] => do
    let maxBurst ← parseArgument maxBurst
    let count ← parseArgument count
    let period ← parseArgument period
    let quantity ← parseArgument quantity
    return ⟨key, maxBurst, count, period, quantity⟩
  -- The name of the command is itself counted as an argument.
  | _ => .error (.generic
      ("Usage: " ++ name ++ " <key> <max_burst> <count per period> <period> [<quantity>]"))

/-- The limiter a command runs. -/
def Arguments.limiter (args : Arguments) : RateLimiter :=
  RateLimiter.new ⟨args.maxBurst, Rate.perPeriod args.count (Duration.seconds args.period)⟩

/--
A span in the seconds a client is told, which are rounded up when its milliseconds do not vanish.

The seconds are cast from a floating-point number, whose value is taken exactly.
-/
def roundedSeconds (span : Duration) : Int64 :=
  let seconds := Int64.ofIntClamp span.wholeSeconds
  if 0 < span.subsecMilliseconds then seconds + 1 else seconds

/-- Reply with the result of a call, and replicate the command that made it. -/
def reply (throttled : Bool) (result : RateLimitResult) : RedisM Unit := do
  let retryAfter := roundedSeconds result.retryAfter
  let resetAfter := roundedSeconds result.resetAfter
  replyArray 5
  replyInteger (if throttled then 1 else 0)
  replyInteger result.limit
  replyInteger result.remaining
  replyInteger retryAfter
  replyInteger resetAfter
  replicateVerbatim

/-- `ThrottleCommand::run`. -/
def run (args : List String) : RedisM Unit := do
  let args ← ExceptT.mk (pure (arguments args))
  let (throttled, result) ← InternalRedisStore.carryOut (args.limiter.rateLimit args.key args.quantity)
  reply throttled result

end ThrottleCommand

/-- The command as it is registered. -/
def throttleCommand : Command := ⟨ThrottleCommand.name, ThrottleCommand.run⟩

end RedisCell
