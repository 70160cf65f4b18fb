import RedisCell.Time.Duration

/-! Rates, quotas, and the limiter configured from them. -/

namespace RedisCell

/-- How often an action may happen in the long run, as the time between two of them. -/
structure Rate where
  period : Duration
  deriving DecidableEq, Repr

/-- The rate of `n` actions in each period. -/
def Rate.perPeriod (n : Int64) (period : Duration) : Rate :=
  let ns := period.wholeNanoseconds
  -- A rate without actions or without time is the zero rate, not a division by zero.
  if n = 0 ∨ ns = 0 then ⟨Duration.nanoseconds 0⟩
  else ⟨Duration.nanoseconds (quotientF64 ns n.toInt)⟩

/-- `Rate::per_day`. -/
def Rate.perDay (n : Int64) : Rate := Rate.perPeriod n (Duration.seconds 86400)

/-- `Rate::per_hour`. -/
def Rate.perHour (n : Int64) : Rate := Rate.perPeriod n (Duration.seconds 3600)

/-- `Rate::per_minute`. -/
def Rate.perMinute (n : Int64) : Rate := Rate.perPeriod n (Duration.seconds 60)

/-- `Rate::per_second`. -/
def Rate.perSecond (n : Int64) : Rate := Rate.perPeriod n (Duration.seconds 1)

example : Rate.perDay 24 = ⟨Duration.seconds 3600⟩ := by decide

/-- A rate together with the burst allowed on top of it. -/
structure RateQuota where
  maxBurst : Int64
  maxRate : Rate
  deriving DecidableEq, Repr

/-- What a call reports about the key it was made on. -/
structure RateLimitResult where
  limit : Int64
  remaining : Int64
  resetAfter : Duration
  retryAfter : Duration
  deriving DecidableEq, Repr

/-- The configuration of a limiter, whose store is the environment its calls run in. -/
structure RateLimiter where
  /-- How far an arrival may run ahead of the evenly spaced schedule. -/
  delayVariationTolerance : Duration
  /-- The time between two arrivals of the evenly spaced schedule. -/
  emissionInterval : Duration
  limit : Int64
  deriving DecidableEq, Repr

/-- Configure a limiter, with every product and sum wrapping as in a release build. -/
def RateLimiter.new (quota : RateQuota) : RateLimiter where
  delayVariationTolerance := Duration.nanoseconds
    (Int64.ofInt quota.maxRate.period.wholeNanoseconds * (quota.maxBurst + 1))
  emissionInterval := quota.maxRate.period
  limit := quota.maxBurst + 1

end RedisCell
