import RedisCell.Cell.RateLimit

/-! What one call decides, reports, and writes, against any store and against the memory store. -/

namespace RedisCell

open Interaction

/-- A stored value stands for its own count of nanoseconds since the epoch. -/
@[simp] theorem fromNanoseconds_nanos (x : UInt64) : (fromNanoseconds x).nanos = x.toNat := by
  -- Whole seconds and the remaining nanoseconds recombine exactly.
  have divided : (x / 1000000000).toNat = x.toNat / 1000000000 := rfl
  have remaining : (x % 1000000000).toNat = x.toNat % 1000000000 := rfl
  simp only [fromNanoseconds, OffsetDateTime.add_nanos, OffsetDateTime.unixEpoch_nanos,
    Duration.new, divided, remaining]
  omega

/-- The encoder reduces an instant modulo the width of a stored value. -/
theorem nanoseconds_eq (x : OffsetDateTime) : nanoseconds x = UInt64.ofInt x.nanos := by
  -- Both signed parts are cast by the same ring homomorphism, which recombines them.
  have split : x.nanos = x.nanos.tdiv 1000000000 * 1000000000 + x.nanos.tmod 1000000000 := by
    rw [mul_comm]
    exact (Int.mul_tdiv_add_tmod x.nanos 1000000000).symm
  conv_rhs => rw [split, UInt64.ofInt_add, UInt64.ofInt_mul]
  simp only [nanoseconds, Duration.wholeSeconds, Duration.subsecNanoseconds,
    OffsetDateTime.sub_nanos, OffsetDateTime.unixEpoch_nanos, sub_zero]
  rfl

/-- The encoded value counts the nanoseconds of the instant, wrapped to its width. -/
theorem nanoseconds_toNat (x : OffsetDateTime) :
    ((nanoseconds x).toNat : Int) = x.nanos % 2 ^ 64 := by
  -- The remainder is a count below the width, which the cast keeps.
  rw [nanoseconds_eq]
  have bounded : (x.nanos % 2 ^ 64).toNat < 2 ^ 64 := by omega
  show ((UInt64.ofNat (x.nanos % 2 ^ 64).toNat).toNat : Int) = _
  rw [UInt64.toNat_ofNat_of_lt' bounded]
  omega

/-- Encoding loses nothing exactly on the instants a stored value can count to. -/
theorem fromNanoseconds_nanoseconds_iff (x : OffsetDateTime) :
    fromNanoseconds (nanoseconds x) = x ↔ 0 ≤ x.nanos ∧ x.nanos < 2 ^ 64 := by
  -- A remainder is the number itself exactly below the divisor.
  rw [OffsetDateTime.ext_iff, fromNanoseconds_nanos, nanoseconds_toNat]
  omega

/-- The next arrival time is the later of now and the schedule, moved by the request. -/
@[simp] theorem nextTat_nanos (now tat : OffsetDateTime) (increment : Duration) :
    (nextTat now tat increment).nanos = max now.nanos tat.nanos + increment.nanos := by
  -- The branch taken is the one whose instant is the maximum.
  unfold nextTat
  split
  · rename_i behind
    rw [gt_iff_lt, OffsetDateTime.lt_iff] at behind
    rw [OffsetDateTime.add_nanos]
    omega
  · rename_i ahead
    rw [gt_iff_lt, OffsetDateTime.lt_iff] at ahead
    rw [OffsetDateTime.add_nanos]
    omega

namespace RateLimiter

/-- The new arrival time one pass computes from what it read. -/
def newTat (increment : Duration) (tatVal : Option UInt64) (now : OffsetDateTime) :
    OffsetDateTime := nextTat now (readTat tatVal now) increment

/-- One pass refuses its request from what it read. -/
def Blocks (limiter : RateLimiter) (increment : Duration) (tatVal : Option UInt64)
    (now : OffsetDateTime) : Prop :=
  limiter.diff now (newTat increment tatVal now) < Duration.zero

instance (limiter : RateLimiter) (increment : Duration) (tatVal : Option UInt64)
    (now : OffsetDateTime) : Decidable (limiter.Blocks increment tatVal now) :=
  inferInstanceAs (Decidable (_ < _))

/-- How a refused pass settles. -/
def blocked (limiter : RateLimiter) (increment : Duration) (tatVal : Option UInt64)
    (now : OffsetDateTime) : Settled :=
  ⟨true, readTat tatVal now - now,
    if increment ≤ limiter.delayVariationTolerance
    then -limiter.diff now (newTat increment tatVal now) else Duration.seconds (-1)⟩

/-- How a pass settles once its update has succeeded. -/
def granted (increment : Duration) (tatVal : Option UInt64) (now : OffsetDateTime) : Settled :=
  ⟨false, newTat increment tatVal now - now, Duration.seconds (-1)⟩

/-- The update a pass asks for when it does not refuse its request. -/
def update (key : String) (increment : Duration) (tatVal : Option UInt64) (now : OffsetDateTime) :
    StoreM Bool :=
  let new := newTat increment tatVal now
  match tatVal with
  | some value => compareAndSwapWithTtl key value (nanoseconds new) (new - now)
  | none => setIfNotExistsWithTtl key (nanoseconds new) (new - now)

/-- One pass reads once, and then either refuses, updates, or leaves the rest to its retry. -/
theorem iteration_eq (limiter : RateLimiter) (key : String) (increment : Duration)
    (retry : StoreM Settled) :
    limiter.iteration key increment retry = (do
      let (tatVal, now) ← getWithTime key
      if limiter.Blocks increment tatVal now then return limiter.blocked increment tatVal now
      if ← update key increment tatVal now then return granted increment tatVal now
      retry) := by
  -- The named values are the local definitions of the pass.
  unfold iteration
  congr 1
  funext read
  obtain ⟨tatVal, now⟩ := read
  by_cases blocks : limiter.Blocks increment tatVal now
  · have refused : limiter.diff now (nextTat now (readTat tatVal now) increment) < Duration.zero :=
      blocks
    simp only [if_pos blocks, if_pos refused]
    rfl
  · have passed : ¬limiter.diff now (nextTat now (readTat tatVal now) increment) < Duration.zero :=
      blocks
    simp only [if_neg blocks, if_neg passed]
    cases tatVal <;> rfl

/-- A request is refused when its end lies past now by more than the tolerance. -/
theorem blocks_iff (limiter : RateLimiter) (increment : Duration) (tatVal : Option UInt64)
    (now : OffsetDateTime) :
    limiter.Blocks increment tatVal now ↔
      now.nanos + limiter.delayVariationTolerance.nanos <
        (newTat increment tatVal now).nanos := by
  -- Both sides compare now with the earliest instant the request is allowed at.
  unfold Blocks
  rw [Duration.lt_iff]
  simp only [diff, OffsetDateTime.sub_nanos, OffsetDateTime.sub_span_nanos, Duration.zero_nanos]
  omega

/-- A limiter without an interval refuses every call before it reads the store. -/
theorem rateLimit_zero {limiter : RateLimiter} (zero : limiter.emissionInterval.nanos = 0)
    (key : String) (quantity : Int64) :
    limiter.rateLimit key quantity = throw (.generic "Zero rates are not supported") := by
  -- The guard compares with the zero span.
  have interval : limiter.emissionInterval = Duration.nanoseconds 0 := Duration.ext zero
  rw [rateLimit, if_pos interval]
  rfl

/-- A limiter with an interval loops until it settles and then reports. -/
theorem rateLimit_eq {limiter : RateLimiter} (nonzero : limiter.emissionInterval.nanos ≠ 0)
    (key : String) (quantity : Int64) :
    limiter.rateLimit key quantity = (do
      let settled ← limiter.attempts key (limiter.increment quantity) maxCasAttempts
      return limiter.report settled) := by
  -- The guard compares with the zero span.
  have interval : limiter.emissionInterval ≠ Duration.nanoseconds 0 :=
    fun same => nonzero (congrArg Duration.nanos same)
  rw [rateLimit, if_neg interval]

section Run

variable {σ : Type} {handle : Handler StoreOp StoreOp.Answer σ} {limiter : RateLimiter}
  {key : String} {increment : Duration} {quantity : Int64} {retry : StoreM Settled}
  {tatVal : Option UInt64} {now : OffsetDateTime} {error : CellError} {state state' state'' : σ}

/-- A successful read yields what the store answered. -/
theorem run_getWithTime
    (read : handle (.getWithTime key) state = (some (.ok (tatVal, now)), state')) :
    (getWithTime key).run.run handle state = (some (.ok (tatVal, now)), state') :=
  Program.run_ask handle _ read

/-- A pass whose read fails ends the call with the error of the store. -/
theorem run_iteration_unread
    (read : handle (.getWithTime key) state = (some (.error error), state')) :
    (limiter.iteration key increment retry).run.run handle state =
      (some (.error error), state') := by
  -- An error of the read is not handled by the pass.
  rw [iteration_eq]
  apply Program.run_bind_error
  exact Program.run_ask handle _ read

/-- A pass whose read aborts aborts the call. -/
theorem run_iteration_abort (read : handle (.getWithTime key) state = (none, state')) :
    (limiter.iteration key increment retry).run.run handle state = (none, state') := by
  -- An operation without an answer has no continuation.
  rw [iteration_eq]
  apply Program.run_bind_abort
  show Program.run handle (.ask (.getWithTime key) .ret) state = _
  simp only [Program.run, read]
  rfl

/-- A pass that refuses its request settles without an update. -/
theorem run_iteration_blocked
    (read : handle (.getWithTime key) state = (some (.ok (tatVal, now)), state'))
    (blocks : limiter.Blocks increment tatVal now) :
    (limiter.iteration key increment retry).run.run handle state =
      (some (.ok (limiter.blocked increment tatVal now)), state') := by
  -- The refusal is decided before any update is asked.
  rw [iteration_eq, Program.run_bind_ok (run_getWithTime read)]
  simp only [if_pos blocks]
  rfl

/-- A pass that does not refuse its request goes on with the outcome of its update. -/
theorem run_iteration_passed
    (read : handle (.getWithTime key) state = (some (.ok (tatVal, now)), state'))
    (passes : ¬limiter.Blocks increment tatVal now) :
    (limiter.iteration key increment retry).run.run handle state =
      (do if ← update key increment tatVal now then return granted increment tatVal now
          retry).run.run handle state' := by
  -- After the read only the update is left.
  rw [iteration_eq, Program.run_bind_ok (run_getWithTime read)]
  simp only [if_neg passes]

/-- Whatever its retries are, a loop starts with one pass. -/
theorem attempts_eq_iteration (limiter : RateLimiter) (key : String) (increment : Duration)
    (left : Nat) : ∃ retry, limiter.attempts key increment left =
      limiter.iteration key increment retry := by
  -- The last attempt retries by failing, and any other one by the rest of the loop.
  cases left with
  | zero => exact ⟨_, rfl⟩
  | succ left => exact ⟨_, rfl⟩

/-- A call ends as its first pass does, when that does not depend on what it would retry with. -/
theorem run_rateLimit (nonzero : limiter.emissionInterval.nanos ≠ 0)
    {outcome : Option (Except CellError Settled)}
    (ends : ∀ retry, (limiter.iteration key (limiter.increment quantity) retry).run.run handle
      state = (outcome, state')) :
    (limiter.rateLimit key quantity).run.run handle state =
      (outcome.map fun settled => settled.map limiter.report, state') := by
  -- The loop is its first pass, with the rest of it as what that retries with.
  obtain ⟨retry, loop⟩ := attempts_eq_iteration limiter key (limiter.increment quantity)
    maxCasAttempts
  have ended := ends retry
  rw [rateLimit_eq nonzero, loop]
  -- Only a pass that has settled is reported.
  rcases outcome with _ | error | settled
  · exact Program.run_bind_abort ended
  · exact Program.run_bind_error ended
  · rw [Program.run_bind_ok ended]
    rfl

/-- A call whose first read fails returns the error of the store. -/
theorem run_rateLimit_unread (nonzero : limiter.emissionInterval.nanos ≠ 0)
    (read : handle (.getWithTime key) state = (some (.error error), state')) :
    (limiter.rateLimit key quantity).run.run handle state = (some (.error error), state') :=
  run_rateLimit nonzero fun _ => run_iteration_unread read

/-- A call whose first read aborts aborts with it. -/
theorem run_rateLimit_abort (nonzero : limiter.emissionInterval.nanos ≠ 0)
    (read : handle (.getWithTime key) state = (none, state')) :
    (limiter.rateLimit key quantity).run.run handle state = (none, state') :=
  run_rateLimit nonzero fun _ => run_iteration_abort read

/-- A call that is refused on its first read reports the refusal and updates nothing. -/
theorem run_rateLimit_blocked (nonzero : limiter.emissionInterval.nanos ≠ 0)
    (read : handle (.getWithTime key) state = (some (.ok (tatVal, now)), state'))
    (blocks : limiter.Blocks (limiter.increment quantity) tatVal now) :
    (limiter.rateLimit key quantity).run.run handle state =
      (some (.ok (limiter.report (limiter.blocked (limiter.increment quantity) tatVal now))),
        state') :=
  run_rateLimit nonzero fun _ => run_iteration_blocked read blocks

/-- A call whose first update succeeds reports the grant. -/
theorem run_rateLimit_granted (nonzero : limiter.emissionInterval.nanos ≠ 0)
    (read : handle (.getWithTime key) state = (some (.ok (tatVal, now)), state'))
    (passes : ¬limiter.Blocks (limiter.increment quantity) tatVal now)
    (updated : (update key (limiter.increment quantity) tatVal now).run.run handle state' =
      (some (.ok true), state'')) :
    (limiter.rateLimit key quantity).run.run handle state =
      (some (.ok (limiter.report (granted (limiter.increment quantity) tatVal now))),
        state'') := by
  -- The retry is never reached.
  have settles : ∀ retry, (limiter.iteration key (limiter.increment quantity) retry).run.run handle
      state = (some (.ok (granted (limiter.increment quantity) tatVal now)), state'') := by
    intro retry
    rw [run_iteration_passed read passes, Program.run_bind_ok updated]
    rfl
  exact run_rateLimit nonzero settles

/-- A call whose first update fails returns the error of the store. -/
theorem run_rateLimit_unwritten (nonzero : limiter.emissionInterval.nanos ≠ 0)
    (read : handle (.getWithTime key) state = (some (.ok (tatVal, now)), state'))
    (passes : ¬limiter.Blocks (limiter.increment quantity) tatVal now)
    (failed : (update key (limiter.increment quantity) tatVal now).run.run handle state' =
      (some (.error error), state'')) :
    (limiter.rateLimit key quantity).run.run handle state = (some (.error error), state'') := by
  -- An error of the update is not retried.
  have ends : ∀ retry, (limiter.iteration key (limiter.increment quantity) retry).run.run handle
      state = (some (.error error), state'') := by
    intro retry
    rw [run_iteration_passed read passes]
    exact Program.run_bind_error failed
  exact run_rateLimit nonzero ends

end Run

end RateLimiter

namespace MemoryStore

/-- The outcome of one call, which is absent when the call aborts. -/
abbrev Outcome := Option (Except CellError (Bool × RateLimitResult))

/-- One call against the memory store, at the time its clock shows. -/
def rateLimit (store : MemoryStore) (limiter : RateLimiter) (key : String) (quantity : Int64)
    (now : OffsetDateTime) : Outcome × MemoryStore :=
  (limiter.rateLimit key quantity).run.run (handle now) store

variable {limiter : RateLimiter} {key : String} {quantity : Int64} {now : OffsetDateTime}
  {store : MemoryStore}

/-- Updating the value just read always succeeds when no other call intervenes. -/
theorem run_update (increment : Duration) :
    (RateLimiter.update key increment (store.map key) now).run.run (handle now) store =
      (some (.ok true),
        store.insert key (nanoseconds (RateLimiter.newTat increment (store.map key) now))) := by
  -- A present key is swapped from its own value, and an absent one is set.
  cases stored : store.map key with
  | none =>
    show Program.run (handle now) (.ask (.setIfNotExistsWithTtl _ _ _) .ret) store = _
    simp only [Program.run, handle, setIfNotExists_absent stored]
    rfl
  | some value =>
    show Program.run (handle now) (.ask (.compareAndSwapWithTtl _ _ _ _) .ret) store = _
    simp only [Program.run, handle, compareAndSwap_present stored]
    rfl

/-- A refused call reports its wait and leaves the store alone. -/
theorem rateLimit_blocked (nonzero : limiter.emissionInterval.nanos ≠ 0)
    (blocks : limiter.Blocks (limiter.increment quantity) (store.map key) now) :
    store.rateLimit limiter key quantity now =
      (some (.ok (limiter.report (limiter.blocked (limiter.increment quantity) (store.map key) now))),
        store) :=
  RateLimiter.run_rateLimit_blocked nonzero rfl blocks

/-- An admitted call stores its new arrival time. -/
theorem rateLimit_granted (nonzero : limiter.emissionInterval.nanos ≠ 0)
    (passes : ¬limiter.Blocks (limiter.increment quantity) (store.map key) now) :
    store.rateLimit limiter key quantity now =
      (some (.ok (limiter.report
          (RateLimiter.granted (limiter.increment quantity) (store.map key) now))),
        store.insert key
          (nanoseconds (RateLimiter.newTat (limiter.increment quantity) (store.map key) now))) :=
  RateLimiter.run_rateLimit_granted nonzero rfl passes (run_update _)

end MemoryStore

end RedisCell
