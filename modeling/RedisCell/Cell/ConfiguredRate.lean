import RedisCell.Cell.Quotients
import RedisCell.Cell.Window
import RedisCell.Gcra.Paced

/-! What a configured rate lets through in a number of its periods. -/

namespace RedisCell

open MemoryStore Gcra

/-- A positive rate divides its period by its count, up to the largest word. -/
theorem Rate.perPeriodExact_nanos {count : Int64} {period : Duration} (countPos : 1 ≤ count.toInt)
    (periodPos : 0 < period.nanos) :
    (Rate.perPeriodExact count period).period.nanos =
      min (period.nanos / count.toInt) (2 ^ 63 - 1) := by
  -- Neither operand is zero, and a positive quotient is never cut off at the lower end.
  have someCount : count ≠ 0 := by
    intro same
    subst same
    exact absurd countPos (by decide)
  have quotient : 0 ≤ period.nanos / count.toInt := Int.ediv_nonneg periodPos.le (by omega)
  have divided : (quotientAsI64 period.nanos count.toInt).toInt =
      min (period.nanos / count.toInt) (2 ^ 63 - 1) := by
    rw [quotientAsI64, if_neg (by omega), toInt_ofIntClamp, Int.tdiv_eq_ediv_of_nonneg periodPos.le]
    omega
  rw [Rate.perPeriodExact, if_neg]
  · exact divided
  · intro holds
    rcases holds with zero | zero
    · exact someCount zero
    · exact absurd zero (ne_of_gt periodPos)

/--
The parameters of a positive rate whose interval does not vanish.

The quotient of a period and its count is taken exactly.
-/
structure ConfiguredRate where
  maxBurst : Int64
  count : Int64
  period : Int64
  burst_nonneg : 0 ≤ maxBurst.toInt
  count_pos : 1 ≤ count.toInt
  period_pos : 1 ≤ period.toInt
  interval_nonzero : (Rate.perPeriodExact count (Duration.seconds period)).period.nanos ≠ 0
  fits : FitsI64
    ((Rate.perPeriodExact count (Duration.seconds period)).period.nanos * (maxBurst.toInt + 1))

namespace ConfiguredRate

/-- The length of the period, in nanoseconds. -/
def periodNanos (rate : ConfiguredRate) : Int := rate.period.toInt * 1000000000

/-- The time between two tokens in whole nanoseconds, up to the largest word. -/
def interval (rate : ConfiguredRate) : Int :=
  min (rate.periodNanos / rate.count.toInt) (2 ^ 63 - 1)

/-- The largest burst. -/
def limit (rate : ConfiguredRate) : Int := rate.maxBurst.toInt + 1

/-- The interval is the one that the parameters configure. -/
theorem perPeriodExact_interval (rate : ConfiguredRate) :
    (Rate.perPeriodExact rate.count (Duration.seconds rate.period)).period.nanos =
      rate.interval := by
  -- The period is a whole number of seconds, so it is positive.
  have positive := rate.period_pos
  rw [Rate.perPeriodExact_nanos rate.count_pos (by rw [Duration.seconds_nanos]; omega)]
  rfl

/-- A configured rate has a positive interval. -/
theorem interval_pos (rate : ConfiguredRate) : 0 < rate.interval := by
  -- A quotient of positive numbers is never negative, and this one is not zero.
  have quotient : 0 ≤ rate.periodNanos / rate.count.toInt := by
    have positive := rate.period_pos
    have counted := rate.count_pos
    exact Int.ediv_nonneg (by simp only [periodNanos]; omega) (by omega)
  have nonzero := rate.interval_nonzero
  rw [perPeriodExact_interval] at nonzero
  simp only [interval] at nonzero ⊢
  omega

/-- The quota the parameters configure. -/
def quota (rate : ConfiguredRate) : PositiveQuota where
  quota := ⟨rate.maxBurst, Rate.perPeriodExact rate.count (Duration.seconds rate.period)⟩
  interval_pos := by
    rw [perPeriodExact_interval]
    exact rate.interval_pos
  limit_pos := by
    have nonneg := rate.burst_nonneg
    show 1 ≤ rate.maxBurst.toInt + 1
    omega
  fits := rate.fits

/-- The quota of a configured rate has its interval. -/
@[simp] theorem quota_interval (rate : ConfiguredRate) : rate.quota.interval = rate.interval :=
  rate.perPeriodExact_interval

/-- The quota of a configured rate has its limit. -/
@[simp] theorem quota_limit (rate : ConfiguredRate) : rate.quota.limit = rate.limit := rfl

/-- A configured rate allows at least one token. -/
theorem limit_pos (rate : ConfiguredRate) : 1 ≤ rate.limit := rate.quota.limit_pos

/-- The tolerance is at least one interval and fits its word. -/
theorem tolerance_bounds (rate : ConfiguredRate) :
    rate.interval ≤ rate.interval * rate.limit ∧ rate.interval * rate.limit < 2 ^ 63 := by
  -- A burst of at least one takes no less than one interval.
  constructor
  · exact le_mul_of_one_le_right rate.interval_pos.le rate.limit_pos
  · have fits := rate.fits.2
    rw [perPeriodExact_interval] at fits
    exact fits

/-- The latest reading from which every arrival time the rate allows can be stored. -/
def lastReading (rate : ConfiguredRate) : Int := 2 ^ 64 - 1 - rate.interval * rate.limit

end ConfiguredRate

/-- The calls of a trace that were made between two instants. -/
def within (start finish : Int) (events : List (Request × Outcome)) : List (Request × Outcome) :=
  events.filter fun event => start ≤ event.1.now.nanos ∧ event.1.now.nanos ≤ finish

/-- The admitted calls between two instants were made between them. -/
theorem mem_within_of_admitted {start finish : Int} {events : List (Request × Outcome)}
    {request : Request} (member : request ∈ admittedCalls (within start finish events)) :
    start ≤ request.now.nanos ∧ request.now.nanos ≤ finish := by
  -- Both filters keep the call.
  simp only [admittedCalls, within, List.mem_map, List.mem_filter, decide_eq_true_eq] at member
  obtain ⟨event, ⟨⟨_, inside⟩, _⟩, rfl⟩ := member
  exact inside

namespace ConfiguredRate

/-- Every run with a steady clock stays within the configured rate over this many periods. -/
def RespectedOver (rate : ConfiguredRate) (periods : Nat) : Prop :=
  ∀ (key : String) (store : MemoryStore) (requests : List Request),
    (∀ request ∈ requests, request.quota = rate.quota) →
    (requests.Pairwise fun earlier later => earlier.now.nanos ≤ later.now.nanos) →
    ∀ start : Int,
      admittedQuantity (within start (start + periods * rate.periodNanos)
        (trace key store requests)) ≤ rate.limit + periods * rate.count.toInt

/-- Calls of the rate are read no later than the last reading. -/
theorem now_le_lastReading {rate : ConfiguredRate} {request : Request}
    (ofRate : request.quota = rate.quota) : request.now.nanos ≤ rate.lastReading := by
  -- The last reading is the latest from which the tolerance can still be counted.
  have reached := request.reaches
  rw [ofRate, quota_interval, quota_limit] at reached
  simp only [lastReading]
  omega

/-- What a number of periods admits is paid for by the tolerance and by the time they cover. -/
theorem admittedQuantity_within_le {rate : ConfiguredRate} {requests : List Request}
    (ofRate : ∀ request ∈ requests, request.quota = rate.quota)
    (ordered : requests.Pairwise fun earlier later => earlier.now.nanos ≤ later.now.nanos)
    (key : String) (store : MemoryStore) (start : Int) {duration : Int} (nonneg : 0 ≤ duration) :
    rate.interval *
        admittedQuantity (within start (start + duration) (trace key store requests)) ≤
      rate.interval * rate.limit + min duration rate.lastReading := by
  -- The calls between the two instants are a segment, because the clock is steady.
  have sorted : (trace key store requests).Pairwise fun left right =>
      left.1.now.nanos ≤ right.1.now.nanos := by
    rw [← trace_requests key store requests, List.pairwise_map] at ordered
    exact ordered
  have contiguous := between_contiguous sorted start (start + duration)
  obtain ⟨store', middle, inside, segment⟩ := segment_is_trace contiguous
  have ofMiddle : ∀ request ∈ middle, request.quota = rate.quota := fun request member =>
    ofRate request (inside.subset member)
  have bound := admittedQuantity_le_spread ofMiddle key store'
  have spans : spread ((admittedCalls (trace key store' middle)).map fun request =>
      request.now.nanos) ≤ min duration rate.lastReading := by
    have tolerance := rate.tolerance_bounds.2
    apply spread_le
    · simp only [lastReading]
      omega
    · intro later laterMem earlier earlierMem
      obtain ⟨last, lastMem, rfl⟩ := List.mem_map.mp laterMem
      obtain ⟨first, firstMem, rfl⟩ := List.mem_map.mp earlierMem
      -- Both calls were made between the instants, and within the range of the clock.
      have lastInside := mem_within_of_admitted (segment ▸ lastMem)
      have firstInside := mem_within_of_admitted (segment ▸ firstMem)
      have reached := now_le_lastReading (ofMiddle last (mem_of_mem_admittedCalls lastMem))
      have early := first.afterEpoch
      omega
  rw [quota_interval, quota_limit] at bound
  rw [within, segment]
  omega

/--
The time that truncating the interval saves stays below one interval over this many periods, or the
clock's range ends before one more token than configured can be earned.
-/
def GainsNothing (rate : ConfiguredRate) (periods : Nat) : Prop :=
  periods * (rate.periodNanos % rate.count.toInt) < rate.periodNanos / rate.count.toInt ∨
    rate.lastReading < (periods * rate.count.toInt + 1) * rate.interval

/-- A rate gains nothing exactly when its periods end before one more interval than configured. -/
theorem gainsNothing_iff (rate : ConfiguredRate) (periods : Nat) :
    rate.GainsNothing periods ↔
      min (periods * rate.periodNanos) rate.lastReading <
        (periods * rate.count.toInt + 1) * rate.interval := by
  -- Periods times the rate are compared with the interval, which truncation has cut.
  have counted := rate.count_pos
  have positive := rate.interval_pos
  have tolerance := rate.tolerance_bounds
  -- The period is its count of exact intervals and the remainder that truncation drops.
  have split : periods * rate.periodNanos =
      periods * rate.count.toInt * (rate.periodNanos / rate.count.toInt) +
        periods * (rate.periodNanos % rate.count.toInt) := by
    rw [mul_assoc, ← mul_add, Int.mul_ediv_add_emod]
  have product : (periods * rate.count.toInt + 1) * rate.interval =
      periods * rate.count.toInt * rate.interval + rate.interval := by ring
  rw [GainsNothing, min_lt_iff]
  by_cases capped : rate.periodNanos / rate.count.toInt < 2 ^ 63
  · have exact_ : rate.interval = rate.periodNanos / rate.count.toInt := by
      simp only [interval]
      omega
    rw [split, product, exact_]
    constructor <;> rintro (gained | ended) <;> omega
  · -- An interval at the end of its word leaves the clock room for a single one.
    have full : rate.interval = 2 ^ 63 - 1 := by
      simp only [interval]
      omega
    rcases Nat.eq_zero_or_pos periods with rfl | some_
    · simp only [Nat.cast_zero, zero_mul, zero_add, one_mul]
      constructor <;> intro _ <;> left <;> omega
    · have many : 1 ≤ (periods : Int) * rate.count.toInt := by nlinarith
      have ended : rate.lastReading < (periods * rate.count.toInt + 1) * rate.interval := by
        rw [full] at tolerance ⊢
        simp only [lastReading, full]
        omega
      exact ⟨fun _ => Or.inr ended, fun _ => Or.inr ended⟩

/-- The densest run of the rate. -/
def pace (rate : ConfiguredRate) : Gcra.Pace where
  interval := rate.interval
  tolerance := rate.interval * rate.limit
  nonneg := rate.interval_pos.le
  covers := rate.tolerance_bounds.1

/-- The limit is itself a quantity a call can ask for. -/
theorem limit_toInt (rate : ConfiguredRate) : (Int64.ofInt rate.limit).toInt = rate.limit := by
  -- The limit is at least one, and no product that fits is smaller.
  have least : 0 ≤ rate.limit := le_trans (by omega) rate.limit_pos
  exact rate.quota.toInt_of_within least le_rfl

/-- The quantities of the densest run: the whole burst first, and single tokens after it. -/
def pacedQuantity (rate : ConfiguredRate) (index : Nat) : Int64 :=
  if index = 0 then Int64.ofInt rate.limit else 1

/-- A call of the densest run costs what its arrival does. -/
theorem pacedQuantity_cost (rate : ConfiguredRate) (index : Nat) :
    rate.interval * (rate.pacedQuantity index).toInt = (rate.pace.arrival index).cost := by
  -- The first call takes the whole burst, and each later one a single token.
  simp only [pacedQuantity, Gcra.Pace.arrival, pace]
  split
  · rw [limit_toInt]
  · exact mul_one rate.interval

/-- The instants of a paced client start at the epoch. -/
theorem pacedInstant_nonneg (rate : ConfiguredRate) (index : Nat) : 0 ≤ index * rate.interval :=
  mul_nonneg (Int.natCast_nonneg index) rate.interval_pos.le

/-- The store can hold the horizon of every instant of a paced client. -/
theorem pacedInstant_reaches {rate : ConfiguredRate} {index : Nat}
    (reached : index * rate.interval ≤ rate.lastReading) :
    index * rate.interval + rate.quota.interval * rate.quota.limit < 2 ^ 64 := by
  -- The instant is one of those the clock can still show.
  simp only [lastReading] at reached
  rw [quota_interval, quota_limit]
  omega

/-- One call of the densest run, made when the clock has reached its interval. -/
def pacedRequest (rate : ConfiguredRate) (index : Nat)
    (reached : index * rate.interval ≤ rate.lastReading) : Request where
  quota := rate.quota
  quantity := rate.pacedQuantity index
  nonneg := by
    -- Both the burst and a single token are positive.
    have limited := rate.limit_pos
    unfold pacedQuantity
    split
    · rw [limit_toInt]
      omega
    · decide
  fits := by
    have positive := rate.interval_pos
    have tolerance := rate.tolerance_bounds
    rw [quota_interval, pacedQuantity_cost]
    simp only [Gcra.Pace.arrival, pace]
    split
    · exact ⟨by omega, tolerance.2⟩
    · exact ⟨by omega, by omega⟩
  now := ⟨index * rate.interval⟩
  afterEpoch := rate.pacedInstant_nonneg index
  reaches := pacedInstant_reaches reached

/-- The calls of a paced client are the arrivals of its pace. -/
theorem pacedRequest_arrival (rate : ConfiguredRate) (index : Nat)
    (reached : index * rate.interval ≤ rate.lastReading) :
    (rate.pacedRequest index reached).arrival = rate.pace.arrival index := by
  -- Calls and arrivals agree on every field.
  have cost := rate.pacedQuantity_cost index
  simp only [Request.arrival, pacedRequest, quota_interval, quota_limit, cost]
  rfl

/-- The densest run, for as long as the clock can follow it. -/
def pacedRequests (rate : ConfiguredRate) (length : Nat)
    (reached : length * rate.interval ≤ rate.lastReading) : List Request :=
  (List.range (length + 1)).pmap rate.pacedRequest fun index member =>
    (mul_le_mul_of_nonneg_right (by
      have bounded := List.mem_range.mp member
      omega) rate.interval_pos.le).trans reached

section Paced

variable {rate : ConfiguredRate} {length : Nat}
  (reached : length * rate.interval ≤ rate.lastReading)

/-- Every call of a paced client names the rate and lies within the length of the pace. -/
theorem mem_pacedRequests {request : Request}
    (member : request ∈ rate.pacedRequests length reached) :
    request.quota = rate.quota ∧ 0 ≤ request.now.nanos ∧
      request.now.nanos ≤ length * rate.interval := by
  -- An index below the length is made before the last interval ends.
  obtain ⟨index, inside, rfl⟩ := List.mem_pmap.mp member
  have bounded := List.mem_range.mp inside
  refine ⟨rfl, rate.pacedInstant_nonneg index, ?_⟩
  exact mul_le_mul_of_nonneg_right (by omega) rate.interval_pos.le

/-- Together, the calls of a paced client are the arrivals of its pace. -/
theorem pacedRequests_arrivals :
    (rate.pacedRequests length reached).map Request.arrival =
      (List.range (length + 1)).map rate.pace.arrival := by
  -- Each request of the densest run is one arrival of the pace.
  rw [pacedRequests, List.map_pmap]
  simp only [pacedRequest_arrival, List.pmap_eq_map]

/-- The clock of the densest run is steady. -/
theorem pacedRequests_ordered :
    (rate.pacedRequests length reached).Pairwise fun earlier later =>
      earlier.now.nanos ≤ later.now.nanos := by
  -- Later indices are made at later multiples of the interval.
  have ascending : ((List.range (length + 1)).map rate.pace.arrival).Pairwise
      fun earlier later => earlier.now ≤ later.now := by
    rw [List.pairwise_map]
    refine (List.pairwise_lt_range).imp fun {first second} before => ?_
    exact mul_le_mul_of_nonneg_right (by omega) rate.interval_pos.le
  rw [← pacedRequests_arrivals reached, List.pairwise_map] at ascending
  exact ascending

/-- A fresh key admits the whole densest run. -/
theorem pacedRequests_admitted (key : String) :
    admittedQuantity (trace key MemoryStore.new (rate.pacedRequests length reached)) =
      rate.limit + length := by
  -- The schedule of a fresh key has not started, so it admits the whole pace.
  have scheduled := trace_admitted MemoryStore.new key (rate.pacedRequests length reached)
  rw [pacedRequests_arrivals] at scheduled
  have fresh : MemoryStore.new.tat key = none := rfl
  rw [fresh, rate.pace.admitted_paced] at scheduled
  have ofRate : ∀ request ∈
      admittedCalls (trace key MemoryStore.new (rate.pacedRequests length reached)),
      request.quota = rate.quota := fun request member =>
    (mem_pacedRequests reached (mem_of_mem_admittedCalls member)).1
  -- The run costs its tolerance and one interval for each later call.
  have charged := total_arrivals ofRate
  rw [scheduled, rate.pace.total_paced, quota_interval] at charged
  have cost : rate.interval * (rate.limit + length) =
      rate.interval * admittedQuantity
        (trace key MemoryStore.new (rate.pacedRequests length reached)) := by
    rw [admittedQuantity, ← charged]
    simp only [pace]
    ring
  exact (mul_left_cancel₀ (ne_of_gt rate.interval_pos) cost).symm

/-- The densest run falls between its first instant and any instant it has reached. -/
theorem pacedRequests_within (key : String) {duration : Int}
    (covered : length * rate.interval ≤ duration) :
    within 0 (0 + duration) (trace key MemoryStore.new (rate.pacedRequests length reached)) =
      trace key MemoryStore.new (rate.pacedRequests length reached) := by
  -- All of them lie in the interval, so none is left out.
  rw [within, List.filter_eq_self]
  intro event member
  have traced : event.1 ∈ rate.pacedRequests length reached := by
    have listed := List.mem_map_of_mem (f := Prod.fst) member
    rw [trace_requests] at listed
    exact listed
  obtain ⟨_, early, late⟩ := mem_pacedRequests reached traced
  simp only [decide_eq_true_eq]
  omega

end Paced

/--
The configured rate is respected over a number of periods exactly when truncation gains nothing.

Otherwise the densest run, a whole burst and then one token each interval, exceeds it.
-/
theorem respectedOver_iff (rate : ConfiguredRate) (periods : Nat) :
    rate.RespectedOver periods ↔ rate.GainsNothing periods := by
  -- What decides is whether one more token is earned than configured.
  have positive := rate.interval_pos
  have counted := rate.count_pos
  rw [gainsNothing_iff]
  -- A rate that gains a token is exceeded by the densest run, and any other one by no run.
  constructor
  · intro respected
    by_contra exceeded
    rw [not_lt, le_min_iff] at exceeded
    -- One more token than configured is earned before the periods and the clock end.
    let length := periods * rate.count.toInt.toNat + 1
    have exact_ : (length : Int) = periods * rate.count.toInt + 1 := by
      simp only [length, Nat.cast_add, Nat.cast_mul, Nat.cast_one]
      rw [Int.toNat_of_nonneg (by omega)]
    rw [← exact_] at exceeded
    have bound := respected "" MemoryStore.new (rate.pacedRequests length exceeded.2)
      (fun request member => (mem_pacedRequests exceeded.2 member).1)
      (pacedRequests_ordered exceeded.2) 0
    rw [pacedRequests_within exceeded.2 "" exceeded.1, pacedRequests_admitted, exact_] at bound
    omega
  · intro gains key store requests ofRate ordered start
    have nonneg : 0 ≤ periods * rate.periodNanos := by
      have positive := rate.period_pos
      refine mul_nonneg (Int.natCast_nonneg periods) ?_
      simp only [periodNanos]
      omega
    have paid := admittedQuantity_within_le ofRate ordered key store start nonneg
    -- Both sides are counted in whole intervals.
    have counted := lt_of_le_of_lt paid (Int.add_lt_add_left gains _)
    have whole : rate.interval * rate.limit + (periods * rate.count.toInt + 1) * rate.interval =
        rate.interval * (rate.limit + periods * rate.count.toInt + 1) := by ring
    rw [whole] at counted
    have fewer := lt_of_mul_lt_mul_left counted positive.le
    omega

end ConfiguredRate

/-- At 300000 per second the interval is truncated to 3333 ns, which gains thirty tokens a second. -/
theorem truncated_interval_exceeds_rate :
    let limiter := RateLimiter.new ⟨399999, Rate.perPeriod 300000 (Duration.seconds 1)⟩
    let first := MemoryStore.new.rateLimit limiter "user123" 400000 ⟨0⟩
    let second := first.2.rateLimit limiter "user123" 300030 ⟨1000000000⟩
    [first.1.limited, second.1.limited] = [some false, some false] ∧
      ¬(400000 + 300030 : Int) ≤ (399999 + 1) + 1 * 300000 := by
  -- An interval of 3333 ns gives 30 tokens a second more than the rate names.
  decide

end RedisCell
