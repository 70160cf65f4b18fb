import RedisCell.Cell.RateLimitLaws
import RedisCell.Gcra.TokenBucket

/-! Runs of calls over the memory store follow the virtual schedule. -/

namespace RedisCell

open Interaction

/-- The tolerance a limiter is configured with is the cast of the exact product. -/
theorem RateLimiter.new_tolerance (quota : RateQuota) :
    (RateLimiter.new quota).delayVariationTolerance.nanos =
      (Int64.ofInt (quota.maxRate.period.nanos * (quota.maxBurst.toInt + 1))).toInt := by
  -- Casting is a ring homomorphism, so the operands may be multiplied before they are cast.
  rw [Int64.ofInt_mul, Int64.ofInt_add, Int64.ofInt_toInt]
  rfl

/-- The increment of a quantity is the cast of the exact product. -/
theorem RateLimiter.increment_nanos (limiter : RateLimiter) (quantity : Int64) :
    (limiter.increment quantity).nanos =
      (Int64.ofInt (limiter.emissionInterval.nanos * quantity.toInt)).toInt := by
  -- Casting is a ring homomorphism, so the interval may be cast with its product.
  rw [Int64.ofInt_mul, Int64.ofInt_toInt]
  rfl

/-- A quota with a positive interval and a positive limit, whose tolerance fits its word. -/
structure PositiveQuota where
  quota : RateQuota
  interval_pos : 0 < quota.maxRate.period.nanos
  limit_pos : 1 ≤ quota.maxBurst.toInt + 1
  fits : FitsI64 (quota.maxRate.period.nanos * (quota.maxBurst.toInt + 1))

namespace PositiveQuota

/-- The emission interval, in nanoseconds. -/
def interval (quota : PositiveQuota) : Int := quota.quota.maxRate.period.nanos

/-- The largest quantity a fresh key admits at once. -/
def limit (quota : PositiveQuota) : Int := quota.quota.maxBurst.toInt + 1

/-- The limiter configured from the quota. -/
def limiter (quota : PositiveQuota) : RateLimiter := RateLimiter.new quota.quota

/-- The limiter of a quota tolerates as many intervals as its limit. -/
@[simp] theorem limiter_tolerance (quota : PositiveQuota) :
    quota.limiter.delayVariationTolerance.nanos = quota.interval * quota.limit := by
  -- The product fits, so it does not wrap.
  rw [limiter, RateLimiter.new_tolerance]
  exact toInt_ofInt_of_fits quota.fits

/-- A positive interval is not the zero rate. -/
theorem limiter_nonzero (quota : PositiveQuota) : quota.limiter.emissionInterval.nanos ≠ 0 :=
  ne_of_gt quota.interval_pos

variable {count : Int}

/-- Every quantity within the limit can be charged. -/
theorem fits_of_within (quota : PositiveQuota) (least : 0 ≤ count) (most : count ≤ quota.limit) :
    FitsI64 (quota.interval * count) := by
  -- No such quantity costs more than the tolerance does.
  have positive : 0 < quota.interval := quota.interval_pos
  have tolerance : quota.interval * quota.limit < 2 ^ 63 := quota.fits.2
  have cost := mul_le_mul_of_nonneg_left most positive.le
  have nonneg := mul_nonneg positive.le least
  exact ⟨by omega, by omega⟩

/-- Every quantity within the limit is a word. -/
theorem toInt_of_within (quota : PositiveQuota) (least : 0 ≤ count) (most : count ≤ quota.limit) :
    (Int64.ofInt count).toInt = count := by
  -- A quantity costs at least itself.
  have cost := (quota.fits_of_within least most).2
  have self := le_mul_of_one_le_left least quota.interval_pos
  have within : count < 2 ^ 63 := lt_of_le_of_lt self cost
  exact toInt_ofInt_of_fits ⟨by omega, within⟩

/-- The limit that is reported is the exact one. -/
theorem limit_toInt (quota : PositiveQuota) : quota.limiter.limit.toInt = quota.limit := by
  -- The limit is a quantity within the limit.
  have least : 0 ≤ quota.limit := le_trans (by omega) quota.limit_pos
  have word : quota.limiter.limit = Int64.ofInt quota.limit := toInt_add_eq _ _
  rw [word]
  exact quota.toInt_of_within least le_rfl

end PositiveQuota

/-- One call on a key: its quota, a quantity that quota can charge, and the time it is made at. -/
structure Demand where
  quota : PositiveQuota
  quantity : Int64
  nonneg : 0 ≤ quantity.toInt
  fits : FitsI64 (quota.interval * quantity.toInt)
  /-- The instant the clock shows during the call. -/
  now : OffsetDateTime

namespace Demand

/-- The time the call adds to the schedule when it is admitted. -/
def increment (demand : Demand) : Duration := demand.quota.limiter.increment demand.quantity

/-- A demand is charged one interval for each of its tokens. -/
@[simp] theorem increment_nanos (demand : Demand) :
    demand.increment.nanos = demand.quota.interval * demand.quantity.toInt := by
  -- The product fits, so it does not wrap.
  rw [increment, RateLimiter.increment_nanos]
  exact toInt_ofInt_of_fits demand.fits

end Demand

/-- A call made when the store can still count to every arrival time that the quota allows. -/
structure Request extends Demand where
  afterEpoch : 0 ≤ now.nanos
  /-- Any clock below `2 ^ 63` satisfies this. -/
  reaches : now.nanos + quota.interval * quota.limit < 2 ^ 64

/-- The call as the virtual schedule sees it. -/
def Request.arrival (request : Request) : Gcra.Arrival Int where
  now := request.now.nanos
  cost := request.quota.interval * request.quantity.toInt
  tolerance := request.quota.interval * request.quota.limit
  nonneg := mul_nonneg request.quota.interval_pos.le request.nonneg

/-- The documented quota: bursts of sixteen, and thirty tokens every sixty seconds. -/
def readmeQuota : PositiveQuota where
  quota := ⟨15, Rate.perPeriod 30 (Duration.seconds 60)⟩
  interval_pos := by decide
  limit_pos := by decide
  fits := by decide

/-- A call of the documented quota that takes three tokens when the clock shows these seconds. -/
def readmeDemand (seconds : Fin 1000) : Demand where
  quota := readmeQuota
  quantity := 3
  nonneg := by decide
  fits := by decide
  now := ⟨seconds * 1000000000⟩

/-- The same call, at one of the first thousand seconds. -/
def readmeRequest (seconds : Fin 1000) : Request where
  toDemand := readmeDemand seconds
  afterEpoch := by simp [readmeDemand]
  reaches := by
    have bounded := seconds.isLt
    have tolerance : readmeQuota.interval * readmeQuota.limit = 32000000000 := by decide
    simp only [readmeDemand, tolerance]
    omega

/-- The arrival time a stored value stands for, if there is one. -/
def storedTat (tatVal : Option UInt64) : Option Int := tatVal.map fun value => (value.toNat : Int)

/-- A pass schedules its request from the instant the virtual schedule calls due. -/
theorem newTat_nanos (increment : Duration) (tatVal : Option UInt64) (now : OffsetDateTime) :
    (RateLimiter.newTat increment tatVal now).nanos =
      Gcra.due (storedTat tatVal) now.nanos + increment.nanos := by
  -- A missing key stands for now, and a present one for its own count.
  cases tatVal <;> simp [RateLimiter.newTat, readTat, storedTat]

/-- Two values that are due at the same instant schedule a call alike. -/
theorem newTat_of_due (increment : Duration) {tatVal tatVal' : Option UInt64}
    {now : OffsetDateTime}
    (same : Gcra.due (storedTat tatVal) now.nanos = Gcra.due (storedTat tatVal') now.nanos) :
    RateLimiter.newTat increment tatVal now = RateLimiter.newTat increment tatVal' now := by
  -- The new time is counted from what is due, and from nothing else.
  ext
  rw [newTat_nanos, newTat_nanos, same]

/-- Two calls of a limiter that schedule the same time are blocked alike. -/
theorem RateLimiter.blocks_of_newTat (limiter : RateLimiter) {increment increment' : Duration}
    {tatVal tatVal' : Option UInt64} {now : OffsetDateTime}
    (same : newTat increment tatVal now = newTat increment' tatVal' now) :
    limiter.Blocks increment tatVal now ↔ limiter.Blocks increment' tatVal' now := by
  -- A pass compares only the new time with now.
  rw [blocks_iff, blocks_iff, same]

/-- Two values that are due at the same instant block a call alike. -/
theorem RateLimiter.blocks_of_due (limiter : RateLimiter) (increment : Duration)
    {tatVal tatVal' : Option UInt64} {now : OffsetDateTime}
    (same : Gcra.due (storedTat tatVal) now.nanos = Gcra.due (storedTat tatVal') now.nanos) :
    limiter.Blocks increment tatVal now ↔ limiter.Blocks increment tatVal' now :=
  limiter.blocks_of_newTat (newTat_of_due increment same)

/-- A value counts every time that a limiter may store at this instant. -/
def RateLimiter.Counts (limiter : RateLimiter) (now : OffsetDateTime) : Prop :=
  0 ≤ now.nanos ∧ now.nanos + limiter.delayVariationTolerance.nanos < 2 ^ 64

/-- Such an instant counts exactly the new time of a request that passes. -/
theorem RateLimiter.nanoseconds_newTat (limiter : RateLimiter) {increment : Duration}
    {tatVal : Option UInt64} {now : OffsetDateTime} (nonneg : 0 ≤ increment.nanos)
    (counts : limiter.Counts now) (passes : ¬limiter.Blocks increment tatVal now) :
    ((nanoseconds (newTat increment tatVal now)).toNat : Int) =
      Gcra.due (storedTat tatVal) now.nanos + increment.nanos := by
  -- The new time lies between now and the tolerance past now.
  obtain ⟨afterEpoch, reaches⟩ := counts
  have ahead := Gcra.le_due (storedTat tatVal) now.nanos
  rw [blocks_iff, newTat_nanos] at passes
  rw [nanoseconds_toNat, newTat_nanos, Int.emod_eq_of_lt (by omega) (by omega)]

/-- The call as the virtual schedule sees it, whatever the clock shows. -/
def Demand.arrival (demand : Demand) : Gcra.Arrival Int where
  now := demand.now.nanos
  cost := demand.quota.interval * demand.quantity.toInt
  tolerance := demand.quota.interval * demand.quota.limit
  nonneg := mul_nonneg demand.quota.interval_pos.le demand.nonneg

/-- A demand is refused exactly when its arrival does not conform. -/
theorem Demand.blocks_iff_not_conforms (demand : Demand) (tatVal : Option UInt64) :
    demand.quota.limiter.Blocks demand.increment tatVal demand.now ↔
      ¬Gcra.Conforms (storedTat tatVal) demand.arrival := by
  -- The tolerance and the increment are exact, so both compare the same instants.
  rw [RateLimiter.blocks_iff, newTat_nanos, demand.increment_nanos,
    PositiveQuota.limiter_tolerance, Gcra.Conforms, not_le]
  rfl

/-- An admitted call's new arrival time is counted by a stored value without wrapping. -/
theorem newTat_encodes (request : Request) {tatVal : Option UInt64}
    (conforms : Gcra.Conforms (storedTat tatVal) request.arrival) :
    storedTat (some (nanoseconds (RateLimiter.newTat request.increment tatVal request.now))) =
      some (Gcra.due (storedTat tatVal) request.arrival.now + request.arrival.cost) := by
  -- The clock leaves room for one tolerance beyond it.
  have counts : request.quota.limiter.Counts request.now := by
    rw [RateLimiter.Counts, PositiveQuota.limiter_tolerance]
    exact ⟨request.afterEpoch, request.reaches⟩
  have nonneg : 0 ≤ request.increment.nanos := by
    rw [request.increment_nanos]
    exact request.arrival.nonneg
  -- What conforms passes, and its increment is exact.
  have passes := mt (request.blocks_iff_not_conforms tatVal).mp (not_not.mpr conforms)
  have counted := request.quota.limiter.nanoseconds_newTat nonneg counts passes
  rw [storedTat, Option.map_some, counted, request.increment_nanos]
  rfl

namespace MemoryStore

/-- The arrival time the store keeps for a key. -/
def tat (store : MemoryStore) (key : String) : Option Int := storedTat (store.map key)

/-- Answer one call on a key that never expires. -/
def answer (store : MemoryStore) (key : String) (demand : Demand) : Outcome × MemoryStore :=
  store.rateLimit demand.quota.limiter key demand.quantity demand.now

/-- Serve one call on a key. -/
def serve (store : MemoryStore) (key : String) (request : Request) : Outcome × MemoryStore :=
  store.rateLimit request.quota.limiter key request.quantity request.now

/-- Whether a call was limited, when it was answered at all. -/
def Outcome.limited : Outcome → Option Bool
  | some (.ok (limited, _)) => some limited
  | _ => none

/-- A call was answered and not limited. -/
def Outcome.admitted (outcome : Outcome) : Bool := outcome.limited == some false

/-- The calls of a run with their outcomes, in order. -/
def trace (key : String) : MemoryStore → List Request → List (Request × Outcome)
  | _, [] => []
  | store, request :: rest =>
    (request, (store.serve key request).1) :: trace key (store.serve key request).2 rest

/-- The store after a run of calls. -/
def afterCalls (key : String) (store : MemoryStore) (requests : List Request) : MemoryStore :=
  requests.foldl (fun store request => (store.serve key request).2) store

/-- A call is limited exactly when its pass blocks. -/
theorem rateLimit_limited {limiter : RateLimiter} (nonzero : limiter.emissionInterval.nanos ≠ 0)
    (store : MemoryStore) (key : String) (quantity : Int64) (now : OffsetDateTime) :
    (store.rateLimit limiter key quantity now).1.limited =
      some (decide (limiter.Blocks (limiter.increment quantity) (store.map key) now)) := by
  -- The flag of a grant and of a refusal is fixed.
  by_cases blocks : limiter.Blocks (limiter.increment quantity) (store.map key) now
  · rw [rateLimit_blocked nonzero blocks, decide_eq_true blocks]
    rfl
  · rw [rateLimit_granted nonzero blocks, decide_eq_false blocks]
    rfl

/-- A demand that does not conform is refused, and changes nothing. -/
theorem answer_refused {store : MemoryStore} {key : String} {demand : Demand}
    (refused : ¬Gcra.Conforms (store.tat key) demand.arrival) :
    store.answer key demand =
      (some (.ok (demand.quota.limiter.report
        (demand.quota.limiter.blocked demand.increment (store.map key) demand.now))), store) :=
  -- A call is blocked exactly when it does not conform.
  rateLimit_blocked demand.quota.limiter_nonzero
    ((demand.blocks_iff_not_conforms (store.map key)).mpr refused)

/-- A demand that conforms is admitted, and stores its new arrival time. -/
theorem answer_conforming {store : MemoryStore} {key : String} {demand : Demand}
    (conforms : Gcra.Conforms (store.tat key) demand.arrival) :
    store.answer key demand =
      (some (.ok (demand.quota.limiter.report
        (RateLimiter.granted demand.increment (store.map key) demand.now))),
        store.insert key (nanoseconds
          (RateLimiter.newTat demand.increment (store.map key) demand.now))) :=
  -- A call is blocked exactly when it does not conform.
  rateLimit_granted demand.quota.limiter_nonzero
    (mt (demand.blocks_iff_not_conforms (store.map key)).mp (not_not.mpr conforms))

/-- A demand is limited exactly when its arrival does not conform. -/
theorem answer_limited (store : MemoryStore) (key : String) (demand : Demand) :
    (store.answer key demand).1.limited =
      some !decide (Gcra.Conforms (store.tat key) demand.arrival) := by
  -- The flag of a grant and of a refusal is fixed.
  by_cases conforms : Gcra.Conforms (store.tat key) demand.arrival
  · rw [answer_conforming conforms, decide_eq_true conforms]
    rfl
  · rw [answer_refused conforms, decide_eq_false conforms]
    rfl

/-- A refused call changes nothing. -/
theorem serve_refused {store : MemoryStore} {key : String} {request : Request}
    (refused : ¬Gcra.Conforms (store.tat key) request.arrival) :
    store.serve key request =
      (some (.ok (request.quota.limiter.report
        (request.quota.limiter.blocked request.increment (store.map key) request.now))), store) :=
  answer_refused refused

/-- An admitted call stores its new arrival time. -/
theorem serve_admitted {store : MemoryStore} {key : String} {request : Request}
    (conforms : Gcra.Conforms (store.tat key) request.arrival) :
    store.serve key request =
      (some (.ok (request.quota.limiter.report
        (RateLimiter.granted request.increment (store.map key) request.now))),
        store.insert key (nanoseconds
          (RateLimiter.newTat request.increment (store.map key) request.now))) :=
  answer_conforming conforms

/-- A call is limited exactly when its arrival does not conform. -/
theorem serve_limited (store : MemoryStore) (key : String) (request : Request) :
    (store.serve key request).1.limited =
      some !decide (Gcra.Conforms (store.tat key) request.arrival) :=
  store.answer_limited key request.toDemand

/-- A call is admitted exactly when its arrival conforms. -/
theorem serve_decides (store : MemoryStore) (key : String) (request : Request) :
    (store.serve key request).1.admitted =
      decide (Gcra.Conforms (store.tat key) request.arrival) := by
  -- Being admitted is not being limited.
  rw [Outcome.admitted, serve_limited]
  cases decide (Gcra.Conforms (store.tat key) request.arrival) <;> rfl

/-- A call moves the stored arrival time as the virtual schedule moves. -/
theorem serve_advances (store : MemoryStore) (key : String) (request : Request) :
    (store.serve key request).2.tat key = Gcra.advance (store.tat key) request.arrival := by
  -- Only an admitted call writes, and what it writes is decoded exactly.
  by_cases conforms : Gcra.Conforms (store.tat key) request.arrival
  · rw [serve_admitted conforms, Gcra.advance_conforming conforms, tat, insert_self]
    exact newTat_encodes request conforms
  · rw [serve_refused conforms, Gcra.advance_refused conforms]

/-- A run moves the stored arrival time as the virtual schedule moves. -/
theorem afterCalls_tat (store : MemoryStore) (key : String) (requests : List Request) :
    (store.afterCalls key requests).tat key =
      Gcra.after (store.tat key) (requests.map Request.arrival) := by
  -- Each call advances the time that the rest of the run starts from.
  induction requests generalizing store with
  | nil => rfl
  | cons request rest ih =>
    rw [List.map_cons, Gcra.after_cons, ← serve_advances]
    exact ih _

/-- A run limits exactly the calls whose arrivals the virtual schedule refuses. -/
theorem trace_limited (store : MemoryStore) (key : String) (requests : List Request) :
    (trace key store requests).map (fun event => event.2.limited) =
      (Gcra.decisions (store.tat key) (requests.map Request.arrival)).map
        fun conforms => some !conforms := by
  -- Each call advances the time that the rest of the run starts from.
  induction requests generalizing store with
  | nil => rfl
  | cons request rest ih =>
    simp only [trace, List.map_cons, Gcra.decisions, serve_limited]
    rw [ih, serve_advances]

/-- The admitted calls of a trace. -/
def admittedCalls (events : List (Request × Outcome)) : List Request :=
  (events.filter fun event => event.2.admitted).map Prod.fst

/-- The calls a run admits are the arrivals the virtual schedule admits. -/
theorem trace_admitted (store : MemoryStore) (key : String) (requests : List Request) :
    (admittedCalls (trace key store requests)).map Request.arrival =
      Gcra.admitted (store.tat key) (requests.map Request.arrival) := by
  -- A call is kept by the filter exactly when its arrival is.
  induction requests generalizing store with
  | nil => rfl
  | cons request rest ih =>
    have tail := ih (store.serve key request).2
    rw [serve_advances] at tail
    simp only [trace, admittedCalls, List.filter_cons, serve_decides, List.map_cons,
      Gcra.admitted, decide_eq_true_eq] at tail ⊢
    split
    · simp only [List.map_cons, tail]
    · exact tail

/-- A run continues from the store its first part leaves. -/
theorem trace_append (store : MemoryStore) (key : String) (first second : List Request) :
    trace key store (first ++ second) =
      trace key store first ++ trace key (store.afterCalls key first) second := by
  -- The first call of the run is also the first one of its first part.
  induction first generalizing store with
  | nil => rfl
  | cons request rest ih =>
    simp only [List.cons_append, trace, ih]
    rfl

/-- The calls of a run are traced in their order. -/
theorem trace_requests (key : String) (store : MemoryStore) (requests : List Request) :
    (trace key store requests).map Prod.fst = requests := by
  -- Each call adds its own event.
  induction requests generalizing store with
  | nil => rfl
  | cons request rest ih => rw [trace, List.map_cons, ih]

/-- Every request leaves one event. -/
@[simp] theorem trace_length (store : MemoryStore) (key : String) (requests : List Request) :
    (trace key store requests).length = requests.length := by
  rw [← List.length_map Prod.fst, trace_requests]

/-- A contiguous segment of a trace is itself the trace of its calls from some store. -/
theorem segment_is_trace {store : MemoryStore} {key : String} {requests : List Request}
    {segment : List (Request × Outcome)} (contiguous : segment <:+: trace key store requests) :
    ∃ start middle, middle <:+: requests ∧ segment = trace key start middle := by
  -- The calls before the segment produce the store that its own calls start from.
  obtain ⟨before, rest, split⟩ := contiguous
  let first := requests.take before.length
  let middle := (requests.drop before.length).take segment.length
  let last := (requests.drop before.length).drop segment.length
  have whole : requests = first ++ middle ++ last := by
    simp only [first, middle, last, List.append_assoc, List.take_append_drop]
  have counted := congrArg List.length split
  simp only [List.length_append, trace_length] at counted
  have firstLength : first.length = before.length := by
    simp only [first, List.length_take]
    omega
  have middleLength : middle.length = segment.length := by
    simp only [middle, List.length_take, List.length_drop]
    omega
  refine ⟨store.afterCalls key first, middle, ⟨first, last, whole.symm⟩, ?_⟩
  rw [whole, trace_append, trace_append] at split
  have parts := List.append_inj split (by simp [firstLength, middleLength])
  exact (List.append_inj parts.1 (by simp [firstLength])).2

end MemoryStore

end RedisCell
