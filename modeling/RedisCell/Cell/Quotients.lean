import RedisCell.Cell.RateLimit

/-! The quotients of a limiter, taken exactly. -/

namespace RedisCell

/-- `Rate::per_period`, whose quotient is exact. -/
def Rate.perPeriodExact (n : Int64) (period : Duration) : Rate :=
  let ns := period.wholeNanoseconds
  if n = 0 ∨ ns = 0 then ⟨Duration.nanoseconds 0⟩
  else ⟨Duration.nanoseconds (quotientAsI64 ns n.toInt)⟩

namespace RateLimiter

/-- The number that a limiter reports as remaining at a TTL, whose quotient is exact. -/
def remainingExact (limiter : RateLimiter) (ttl : Duration) : Int64 :=
  let next := limiter.delayVariationTolerance - ttl
  if next > -limiter.emissionInterval then
    quotientAsI64 next.wholeMicroseconds limiter.emissionInterval.wholeMicroseconds
  else 0

/-- A result of the limiter, which reports its TTL as the time until it is reset. -/
def exactly (limiter : RateLimiter) (result : RateLimitResult) : RateLimitResult :=
  { result with remaining := limiter.remainingExact result.resetAfter }

end RateLimiter

end RedisCell
