import RedisCell.Cell.Expiry
import RedisCell.Cell.Quotients
import RedisCell.Gcra.Wait

/-!
The number of requests that a call reports as remaining, and the number that still pass.

The quotient behind the first of them is taken exactly.
-/

namespace RedisCell

open Gcra MemoryStore

/-- The number of intervals that a call reports for a slack: whole microseconds, as a quotient. -/
def wholeIntervals (interval slack : Int) : Int64 :=
  if -interval < slack then quotientAsI64 (slack.tdiv 1000) (interval.tdiv 1000) else 0

/--
Counting a slack in the whole microseconds of an interval finds as many intervals as there are in a
room.
-/
def CountsIn (interval slack room : Int) : Prop :=
  let whole := interval - interval % 1000
  if room < interval then slack ≤ -interval ∨ |slack| < max whole 1000
  else if whole = 0 then 1000 ≤ slack ∧ room / interval = 2 ^ 63 - 1
  else room / interval * whole ≤ slack ∧ slack < (room / interval + 1) * whole

section Counting

variable {interval slack room : Int}

/-- An interval below one microsecond counts as nothing, so the quotient is zero or saturates. -/
theorem wholeIntervals_short (short : 0 < interval ∧ interval < 1000) :
    (wholeIntervals interval slack).toInt = if 1000 ≤ slack then 2 ^ 63 - 1 else 0 := by
  -- The interval has no whole microsecond, so the quotient has no divisor.
  have nothing : interval.tdiv 1000 = 0 := by
    rcases tdiv_cases interval 1000 with ⟨_, same⟩ | ⟨negative, _⟩
    · rw [same]
      omega
    · omega
  have truncated := tdiv_cases slack 1000
  rw [wholeIntervals, quotientAsI64, if_pos nothing]
  split
  · by_cases large : 1000 ≤ slack
    · rw [if_neg (by omega), if_pos (by omega), if_pos large]
      decide
    · rw [if_pos (by omega), if_neg large]
      decide
  · rw [if_neg (by omega)]
    decide

/-- Dividing whole microseconds divides by the whole microseconds of the interval. -/
theorem micros_tdiv (positive : 0 < interval) :
    (slack.tdiv 1000).tdiv (interval.tdiv 1000) = slack.tdiv (interval - interval % 1000) := by
  -- The divisor is the interval without its odd nanoseconds.
  have whole : interval - interval % 1000 = 1000 * (interval / 1000) := by omega
  rw [Int.tdiv_eq_ediv_of_nonneg positive.le, whole]
  rcases tdiv_cases slack 1000 with ⟨nonneg, same⟩ | ⟨negative, same⟩
  · rw [same, Int.tdiv_eq_ediv_of_nonneg (by omega), Int.tdiv_eq_ediv_of_nonneg nonneg,
      Int.ediv_ediv_of_nonneg (by omega)]
  · -- A negative slack is divided as its magnitude is.
    rw [same, Int.neg_tdiv, Int.tdiv_eq_ediv_of_nonneg (by omega),
      Int.ediv_ediv_of_nonneg (by omega), ← Int.tdiv_eq_ediv_of_nonneg (by omega), Int.neg_tdiv,
      neg_neg]

/-- Any longer interval counts in whole microseconds. -/
theorem wholeIntervals_long (long : 1000 ≤ interval) (ahead : -interval < slack) :
    (wholeIntervals interval slack).toInt =
      max (-2 ^ 63) (min (slack.tdiv (interval - interval % 1000)) (2 ^ 63 - 1)) := by
  -- A divisor of at least one microsecond leaves only the cast to saturate.
  have divisor : interval.tdiv 1000 ≠ 0 := by
    rw [Int.tdiv_eq_ediv_of_nonneg (by omega)]
    omega
  rw [wholeIntervals, if_pos ahead, quotientAsI64, if_neg divisor, toInt_ofIntClamp,
    micros_tdiv (by omega)]

/-- A quotient is a positive number exactly on the dividends that hold the divisor so often. -/
theorem tdiv_eq_iff_of_pos {divisor count : Int} (positive : 0 < divisor) (some_ : 1 ≤ count) :
    slack.tdiv divisor = count ↔ count * divisor ≤ slack ∧ slack < (count + 1) * divisor := by
  -- A negative dividend has no positive quotient.
  rcases tdiv_cases slack divisor with ⟨_, same⟩ | ⟨negative, same⟩
  · rw [same, ← Int.le_ediv_iff_mul_le positive, ← Int.ediv_lt_iff_lt_mul positive]
    omega
  · have nonneg := Int.ediv_nonneg (by omega : 0 ≤ -slack) positive.le
    have large : 0 < count * divisor := mul_pos (by omega) positive
    omega

/-- A quotient is zero exactly on the dividends below the divisor. -/
theorem tdiv_eq_zero_iff {divisor : Int} (positive : 0 < divisor) :
    slack.tdiv divisor = 0 ↔ |slack| < divisor := by
  -- Truncation toward zero divides the magnitude.
  rcases tdiv_cases slack divisor with ⟨nonneg, same⟩ | ⟨negative, same⟩
  · rw [same, abs_of_nonneg nonneg, Int.ediv_eq_iff_of_pos positive]
    omega
  · rw [same, abs_of_neg negative, neg_eq_zero, Int.ediv_eq_iff_of_pos positive]
    omega

/-- The reported number is the number of intervals in a room exactly when one counts the other. -/
theorem wholeIntervals_eq_iff (positive : 0 < interval) (bounded : room < 2 ^ 63) :
    (wholeIntervals interval slack).toInt = max 0 (room / interval) ↔
      CountsIn interval slack room := by
  -- A room smaller than one interval holds none of them.
  have held : room < interval ↔ room / interval < 1 := by
    rw [Int.ediv_lt_iff_lt_mul positive, one_mul]
  -- A slack at least one interval below nothing is reported as nothing.
  by_cases ahead : -interval < slack
  · by_cases short : interval < 1000
    · have nothing : interval - interval % 1000 = 0 := by omega
      rw [wholeIntervals_short ⟨positive, short⟩, CountsIn, if_pos nothing, nothing, abs_lt]
      split
      · split <;> omega
      · split <;> omega
    · have whole : 1000 ≤ interval - interval % 1000 := by omega
      rw [wholeIntervals_long (not_lt.mp short) ahead, CountsIn]
      by_cases empty : room < interval
      · rw [if_pos empty, max_eq_left whole, ← tdiv_eq_zero_iff (by omega)]
        omega
      · -- The room is too small for a quotient to saturate on it.
        have few : room / interval < 2 ^ 63 - 1 := by
          rw [Int.ediv_lt_iff_lt_mul positive]
          omega
        rw [if_neg empty, if_neg (by omega), ← tdiv_eq_iff_of_pos (by omega) (by omega)]
        omega
  · have none_ : (wholeIntervals interval slack).toInt = 0 := by
      rw [wholeIntervals, if_neg ahead]
      rfl
    rw [none_, CountsIn]
    split
    · omega
    · have held : 1 ≤ room / interval := by omega
      split
      · omega
      · have counted : 0 ≤ room / interval * (interval - interval % 1000) :=
          mul_nonneg (by omega) (by omega)
        omega

/-- An interval of whole microseconds counts any slack as it is. -/
theorem countsIn_of_whole (positive : 0 < interval) (whole : interval % 1000 = 0) :
    CountsIn interval slack slack := by
  -- Rounding down to whole microseconds changes nothing here.
  rw [CountsIn, whole, sub_zero, abs_lt]
  split
  · omega
  · rw [if_neg (by omega)]
    exact ⟨Int.ediv_mul_le slack (by omega), Int.lt_ediv_add_one_mul_self slack positive⟩

end Counting

namespace Demand

/-- What a call leaves on a key, whose value counts the new time modulo its width. -/
def leaves (demand : Demand) (tat : Option Int) : Option Int :=
  if Conforms tat demand.arrival then
    some ((due tat demand.now.nanos + demand.arrival.cost) % 2 ^ 64)
  else tat

/--
How far below its limit a call sees the key: below the time it schedules when it passes, and below
the time it reads when it is refused.
-/
def slack (demand : Demand) (tat : Option Int) : Int :=
  demand.now.nanos + demand.arrival.tolerance -
    if Conforms tat demand.arrival then due tat demand.now.nanos + demand.arrival.cost
    else tat.getD demand.now.nanos

/-- How far below its limit a call leaves the key at the same instant. -/
def room (demand : Demand) (tat : Option Int) : Int :=
  demand.now.nanos + demand.arrival.tolerance - due (demand.leaves tat) demand.now.nanos

/-- A call under the same quota, at the same instant. -/
def Follows (next demand : Demand) : Prop := next.quota = demand.quota ∧ next.now = demand.now

/-- The room of a key never exceeds the tolerance. -/
theorem room_le (demand : Demand) (tat : Option Int) :
    demand.room tat ≤ demand.quota.interval * demand.quota.limit := by
  -- What is due is never earlier than now.
  have ahead := le_due (demand.leaves tat) demand.now.nanos
  show demand.now.nanos + demand.quota.interval * demand.quota.limit - _ ≤ _
  omega

/-- The same call for another quantity within the limit. -/
def ofQuantity (demand : Demand) (count : Int) (least : 0 ≤ count)
    (most : count ≤ demand.quota.limit) : Demand where
  quota := demand.quota
  quantity := Int64.ofInt count
  nonneg := by rwa [demand.quota.toInt_of_within least most]
  fits := by
    rw [demand.quota.toInt_of_within least most]
    exact demand.quota.fits_of_within least most
  now := demand.now

end Demand

namespace MemoryStore

variable {store : MemoryStore} {key : String} {demand : Demand}

/-- A call leaves on its key what the schedule says, counted modulo the width of a value. -/
theorem answer_tat (store : MemoryStore) (key : String) (demand : Demand) :
    (store.answer key demand).2.tat key = demand.leaves (store.tat key) := by
  -- Only a demand that conforms writes.
  by_cases conforms : Conforms (store.tat key) demand.arrival
  · rw [answer_conforming conforms, Demand.leaves, if_pos conforms, tat, insert_self, storedTat,
      Option.map_some, nanoseconds_toNat, newTat_nanos, demand.increment_nanos]
    rfl
  · rw [answer_refused conforms, Demand.leaves, if_neg conforms]

/-- A call settles on a TTL that is what its slack leaves of the tolerance. -/
theorem answer_settled (store : MemoryStore) (key : String) (demand : Demand) :
    ∃ settled, (store.answer key demand).1 =
        some (.ok (demand.quota.limiter.report settled)) ∧
      demand.slack (store.tat key) = demand.arrival.tolerance - settled.ttl.nanos := by
  -- The TTL of a grant ends at the new time, and that of a refusal at the time that was read.
  by_cases conforms : Conforms (store.tat key) demand.arrival
  · refine ⟨_, congrArg Prod.fst (answer_conforming conforms), ?_⟩
    rw [Demand.slack, if_pos conforms, RateLimiter.granted, OffsetDateTime.sub_nanos, newTat_nanos,
      demand.increment_nanos]
    simp only [Demand.arrival, tat]
    omega
  · refine ⟨_, congrArg Prod.fst (answer_refused conforms), ?_⟩
    rw [Demand.slack, if_neg conforms, RateLimiter.blocked, OffsetDateTime.sub_nanos]
    cases stored : store.map key with
    | none =>
      simp only [tat, stored, storedTat, readTat, Option.map_none, Option.getD_none]
      omega
    | some value =>
      simp only [tat, stored, storedTat, readTat, Option.map_some, Option.getD_some,
        fromNanoseconds_nanos]
      omega

/-- A call reports its limit, and the intervals that it counts in the slack of its key. -/
theorem answer_remaining (store : MemoryStore) (key : String) (demand : Demand) :
    ∃ limited result, (store.answer key demand).1 = some (.ok (limited, result)) ∧
      (demand.quota.limiter.exactly result).limit.toInt = demand.quota.limit ∧
      (demand.quota.limiter.exactly result).remaining =
        wholeIntervals demand.quota.interval (demand.slack (store.tat key)) := by
  -- What is left of the tolerance is counted in intervals.
  obtain ⟨settled, answered, slack⟩ := answer_settled store key demand
  refine ⟨_, _, answered, demand.quota.limit_toInt, ?_⟩
  -- The tolerance is exact, and so is what is left of it.
  have spare : demand.slack (store.tat key) =
      (demand.quota.limiter.delayVariationTolerance - settled.ttl).nanos := by
    rw [slack, Duration.sub_nanos, PositiveQuota.limiter_tolerance]
    rfl
  rw [spare]
  rfl

/-- A following call is admitted exactly when the room holds its quantity. -/
theorem follows_admitted {next : Demand} (follows : next.Follows demand) :
    ((store.answer key demand).2.answer key next).1.limited = some false ↔
      next.quantity.toInt ≤ demand.room (store.tat key) / demand.quota.interval := by
  -- The following call is of the same quota, at the same instant.
  obtain ⟨quota, now⟩ := follows
  have positive : 0 < demand.quota.interval := demand.quota.interval_pos
  -- Nothing has happened to the key since the call left it.
  rw [answer_limited, answer_tat, Option.some.injEq, Bool.not_eq_false', decide_eq_true_eq,
    Conforms, Int.le_ediv_iff_mul_le positive, mul_comm]
  simp only [Demand.room, Demand.arrival, quota, now]
  show _ ↔ demand.quota.interval * _ ≤ _
  omega

/--
The number that a call reports as remaining is truthful: it lies between nothing and the limit, and
the calls that would be admitted right after it are those for no more than this number.
-/
def TellsRemaining (store : MemoryStore) (key : String) (demand : Demand) : Prop :=
  ∃ limited result, (store.answer key demand).1 = some (.ok (limited, result)) ∧
    let told := demand.quota.limiter.exactly result
    0 ≤ told.remaining.toInt ∧ told.remaining.toInt ≤ told.limit.toInt ∧
    ∀ next : Demand, next.Follows demand → 1 ≤ next.quantity.toInt →
      (((store.answer key demand).2.answer key next).1.limited = some false ↔
        next.quantity.toInt ≤ told.remaining.toInt)

/-- The number that is reported is truthful when it is the number of intervals in the room. -/
theorem tellsRemaining_iff_room (store : MemoryStore) (key : String) (demand : Demand) :
    store.TellsRemaining key demand ↔
      (wholeIntervals demand.quota.interval (demand.slack (store.tat key))).toInt =
        max 0 (demand.room (store.tat key) / demand.quota.interval) := by
  -- The number is truthful for every following call, or else one of its size tells it apart.
  obtain ⟨limited, result, answered, limit, remaining⟩ := answer_remaining store key demand
  have least : 1 ≤ demand.quota.limit := demand.quota.limit_pos
  -- The room never holds more than the limit.
  have most : demand.room (store.tat key) / demand.quota.interval ≤ demand.quota.limit := by
    have within := demand.room_le (store.tat key)
    rw [mul_comm] at within
    exact Int.ediv_le_of_le_mul demand.quota.interval_pos within
  rw [← remaining]
  apply Iff.intro
  · intro told
    obtain ⟨limited', result', answered', nonneg, bounded, tells⟩ := told
    rw [answered] at answered'
    cases answered'
    rw [limit] at bounded
    -- Both numbers are quantities that could be asked for.
    have asked : ∀ count, 1 ≤ count → count ≤ demand.quota.limit →
        (count ≤ demand.room (store.tat key) / demand.quota.interval ↔
          count ≤ (demand.quota.limiter.exactly result).remaining.toInt) := by
      intro count some_ within
      have follows : (demand.ofQuantity count (by omega) within).Follows demand := ⟨rfl, rfl⟩
      have next := tells _ follows
      rw [follows_admitted follows] at next
      have quantity : (demand.ofQuantity count (by omega) within).quantity.toInt = count :=
        demand.quota.toInt_of_within (by omega) within
      rw [quantity] at next
      exact next some_
    have own := asked (demand.quota.limiter.exactly result).remaining.toInt
    have held := asked (demand.room (store.tat key) / demand.quota.interval)
    omega
  · intro same
    refine ⟨limited, result, answered, by omega, by omega, ?_⟩
    intro next follows some_
    rw [follows_admitted follows]
    omega

/-- The number that a call reports as remaining is truthful exactly when its slack counts its room. -/
theorem tellsRemaining_iff (store : MemoryStore) (key : String) (demand : Demand) :
    store.TellsRemaining key demand ↔
      CountsIn demand.quota.interval (demand.slack (store.tat key))
        (demand.room (store.tat key)) := by
  -- The room is bounded by the tolerance, which is a word.
  rw [tellsRemaining_iff_room]
  apply wholeIntervals_eq_iff demand.quota.interval_pos
  exact lt_of_le_of_lt (demand.room_le _) demand.quota.fits.2

/-- An interval of half a microsecond divides by zero, and a peek promises all that a word can. -/
theorem short_interval_promises :
    let quota : PositiveQuota := ⟨⟨9, Rate.perPeriod 2000000 (Duration.seconds 1)⟩,
      by decide, by decide, by decide⟩
    let peek : Demand := ⟨quota, 0, by decide, by decide, ⟨0⟩⟩
    quota.interval = 500 ∧ quota.limit = 10 ∧
      (MemoryStore.new.answer "user123" peek).1.map (Except.map fun told => told.2.remaining) =
        some (.ok Int64.maxValue) ∧
      ¬MemoryStore.new.TellsRemaining "user123" peek := by
  -- Five microseconds are divided by none.
  intro quota peek
  refine ⟨by decide, by decide, by decide, ?_⟩
  rw [tellsRemaining_iff_room]
  decide

/-- Within its limit, a request sees its key as far below the limit as it leaves it. -/
theorem slack_eq_room {request : Request} {tat : Option Int}
    (within : request.quantity.toInt ≤ request.quota.limit) :
    request.toDemand.slack tat = request.toDemand.room tat := by
  -- An admitted call sees the new time, and a refused one the old.
  have possible : request.arrival.cost ≤ request.arrival.tolerance :=
    mul_le_mul_of_nonneg_left within request.quota.interval_pos.le
  by_cases conforms : Conforms tat request.arrival
  · -- The new time lies between now and the last instant that a value can count.
    have early := request.afterEpoch
    have reached := request.reaches
    have nonneg := request.arrival.nonneg
    have ahead := le_due tat request.now.nanos
    have ended := conforms
    simp only [Conforms, Request.arrival] at nonneg ended
    rw [Demand.slack, Demand.room, Demand.leaves]
    simp only [show request.toDemand.arrival = request.arrival from rfl, if_pos conforms, due_some]
    simp only [Request.arrival]
    omega
  · -- A refusal within the limit is due to a time that lies ahead.
    have refused := conforms
    rw [Conforms, not_le] at refused
    obtain ⟨ahead, rfl, _, reached⟩ := ahead_of_refused refused possible
    rw [Demand.slack, Demand.room, Demand.leaves]
    simp only [show request.toDemand.arrival = request.arrival from rfl, if_neg conforms]
    exact congrArg _ reached.symm

/-- Under a quota of whole microseconds, a request within its limit is told the truth. -/
theorem tellsRemaining_of_whole (store : MemoryStore) (key : String) (request : Request)
    (whole : request.quota.interval % 1000 = 0)
    (within : request.quantity.toInt ≤ request.quota.limit) :
    store.TellsRemaining key request.toDemand := by
  -- Slack and room agree, and such an interval counts them exactly.
  have positive : 0 < request.quota.interval := request.quota.interval_pos
  rw [tellsRemaining_iff_room, wholeIntervals_eq_iff positive, slack_eq_room within]
  · exact countsIn_of_whole positive whole
  · exact lt_of_le_of_lt (request.room_le _) request.quota.fits.2

end MemoryStore

end RedisCell
