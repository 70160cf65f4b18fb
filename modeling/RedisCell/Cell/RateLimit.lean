import RedisCell.Cell.Rate
import RedisCell.Cell.Store

/-! The generic cell rate algorithm, as one call runs it against a store. -/

namespace RedisCell

open Interaction

/-- How often a lost update is retried before the call gives up. -/
def maxCasAttempts : Nat := 5

/-- The instant a stored value stands for. -/
def fromNanoseconds (x : UInt64) : OffsetDateTime :=
  OffsetDateTime.unixEpoch +
    Duration.new (x / 1000000000).toNat (x % 1000000000).toNat

/-- The stored value of an instant, whose signed parts are cast to unsigned words. -/
def nanoseconds (x : OffsetDateTime) : UInt64 :=
  let sinceEpoch := x - OffsetDateTime.unixEpoch
  UInt64.ofInt sinceEpoch.wholeSeconds * 1000000000 + UInt64.ofInt sinceEpoch.subsecNanoseconds

/-- The theoretical arrival time a read stands for, which is now for a missing key. -/
def readTat (tatVal : Option UInt64) (now : OffsetDateTime) : OffsetDateTime :=
  match tatVal with
  | none => now
  | some value => fromNanoseconds value

/-- The arrival time after a request, counted from now when the schedule has fallen behind. -/
def nextTat (now tat : OffsetDateTime) (increment : Duration) : OffsetDateTime :=
  if now > tat then now + increment else tat + increment

namespace RateLimiter

/-- How far ahead of now the schedule lets this request be, negative when it must wait. -/
def diff (limiter : RateLimiter) (now newTat : OffsetDateTime) : Duration :=
  let allowAt := newTat - limiter.delayVariationTolerance
  now - allowAt

/-- The part of a result that the loop has settled: whether it is limited, its TTL, and its wait. -/
structure Settled where
  limited : Bool
  ttl : Duration
  retryAfter : Duration
  deriving DecidableEq, Repr

/--
One pass of the loop, which goes on to `retry` when another limiter won the update.

The wait stays at minus one second unless a blocked request could ever be admitted.
-/
def iteration (limiter : RateLimiter) (key : String) (increment : Duration)
    (retry : StoreM Settled) : StoreM Settled := do
  let (tatVal, now) ← getWithTime key
  let tat := readTat tatVal now
  let newTat := nextTat now tat increment
  let diff := limiter.diff now newTat
  -- Block the request when its next permitted time is in the future.
  if diff < Duration.zero then
    let retryAfter :=
      if increment ≤ limiter.delayVariationTolerance then -diff else Duration.seconds (-1)
    return ⟨true, tat - now, retryAfter⟩
  let newTatNs := nanoseconds newTat
  let ttl := newTat - now
  -- A missing key is set if it is still missing, and a present one is compared and swapped.
  let updated ← match tatVal with
    | some someTatVal => compareAndSwapWithTtl key someTatVal newTatNs ttl
    | none => setIfNotExistsWithTtl key newTatNs ttl
  if updated then return ⟨false, ttl, Duration.seconds (-1)⟩
  retry

/-- The loop, with the number of failed updates it may still retry. -/
def attempts (limiter : RateLimiter) (key : String) (increment : Duration) : Nat → StoreM Settled
  | 0 => limiter.iteration key increment (throw (.generic
      ("Failed to update rate limit after " ++ maxCasAttempts.repr ++ " attempts")))
  | left + 1 => limiter.iteration key increment (limiter.attempts key increment left)

/-- The time a request of this quantity adds to the schedule. -/
def increment (limiter : RateLimiter) (quantity : Int64) : Duration :=
  Duration.nanoseconds (Int64.ofInt limiter.emissionInterval.wholeNanoseconds * quantity)

/-- Report a settled call. -/
def report (limiter : RateLimiter) (settled : Settled) : Bool × RateLimitResult :=
  -- Whole microseconds are divided in floating point, and the quotient is cast.
  let next := limiter.delayVariationTolerance - settled.ttl
  let remaining :=
    if next > -limiter.emissionInterval then
      quotientF64 next.wholeMicroseconds limiter.emissionInterval.wholeMicroseconds
    else 0
  (settled.limited, ⟨limiter.limit, remaining, settled.ttl, settled.retryAfter⟩)

/-- Check whether a key has exceeded its limit, and charge the quantity when it has not. -/
def rateLimit (limiter : RateLimiter) (key : String) (quantity : Int64) :
    StoreM (Bool × RateLimitResult) := do
  if limiter.emissionInterval = Duration.nanoseconds 0 then
    throw (.generic "Zero rates are not supported")
  let settled ← limiter.attempts key (limiter.increment quantity) maxCasAttempts
  return limiter.report settled

end RateLimiter

end RedisCell
