import RedisCell.Cell.Run
import RedisCell.Gcra.Wait

/-! The wait a refused call reports, for rates and quantities of either sign. -/

namespace RedisCell

open MemoryStore

/-- A call of any accepted rate whose tolerance and increment fit their words. -/
structure AcceptedCall where
  quota : RateQuota
  quantity : Int64
  accepted : quota.maxRate.period.nanos ≠ 0
  toleranceFits : FitsI64 (quota.maxRate.period.nanos * (quota.maxBurst.toInt + 1))
  incrementFits : FitsI64 (quota.maxRate.period.nanos * quantity.toInt)

namespace AcceptedCall

/-- How far the call may run ahead of now, in nanoseconds. -/
def tolerance (call : AcceptedCall) : Int :=
  call.quota.maxRate.period.nanos * (call.quota.maxBurst.toInt + 1)

/-- What the call adds to the schedule, in nanoseconds. -/
def increment (call : AcceptedCall) : Int :=
  call.quota.maxRate.period.nanos * call.quantity.toInt

/-- The limiter the call is made of. -/
def limiter (call : AcceptedCall) : RateLimiter := RateLimiter.new call.quota

/-- The limiter of an accepted call has its tolerance. -/
@[simp] theorem limiter_tolerance (call : AcceptedCall) :
    call.limiter.delayVariationTolerance.nanos = call.tolerance := by
  -- The product fits its word.
  rw [limiter, RateLimiter.new_tolerance]
  exact toInt_ofInt_of_fits call.toleranceFits

/-- The limiter of an accepted call charges its increment. -/
@[simp] theorem limiter_increment (call : AcceptedCall) :
    (call.limiter.increment call.quantity).nanos = call.increment := by
  -- The product fits its word.
  rw [RateLimiter.increment_nanos]
  exact toInt_ofInt_of_fits call.incrementFits

/-- A call is refused when its end lies past now by more than the tolerance. -/
theorem blocks_iff (call : AcceptedCall) (tatVal : Option UInt64) (now : OffsetDateTime) :
    call.limiter.Blocks (call.limiter.increment call.quantity) tatVal now ↔
      now.nanos + call.tolerance < Gcra.due (storedTat tatVal) now.nanos + call.increment := by
  -- Both sides compare exact instants.
  rw [RateLimiter.blocks_iff, newTat_nanos, limiter_tolerance, limiter_increment]

/-- Make the call on a key of a store. -/
def on (call : AcceptedCall) (store : MemoryStore) (key : String) (now : OffsetDateTime) :
    Outcome × MemoryStore :=
  store.rateLimit call.limiter key call.quantity now

/-- A call is limited exactly when its end lies past now by more than the tolerance. -/
theorem on_limited (call : AcceptedCall) (store : MemoryStore) (key : String)
    (now : OffsetDateTime) :
    (call.on store key now).1.limited = some (decide (now.nanos + call.tolerance <
      Gcra.due (storedTat (store.map key)) now.nanos + call.increment)) := by
  -- The limiter blocks on the same comparison.
  rw [on, rateLimit_limited call.accepted]
  exact congrArg some (decide_eq_decide.mpr (call.blocks_iff _ _))

/-- What the end of the call exceeds the tolerance by. -/
def wait (call : AcceptedCall) (tatVal : Option UInt64) (now : OffsetDateTime) : Duration :=
  ⟨Gcra.due (storedTat tatVal) now.nanos + call.increment - call.tolerance - now.nanos⟩

/-- A call waits for its new arrival time to come within the tolerance. -/
@[simp] theorem wait_nanos (call : AcceptedCall) (tatVal : Option UInt64) (now : OffsetDateTime) :
    (call.wait tatVal now).nanos =
      Gcra.due (storedTat tatVal) now.nanos + call.increment - call.tolerance - now.nanos := rfl

/-- The wait a refusal reports is what its end exceeds the tolerance by, or minus one second. -/
theorem blocked_retryAfter (call : AcceptedCall) (tatVal : Option UInt64) (now : OffsetDateTime) :
    (call.limiter.blocked (call.limiter.increment call.quantity) tatVal now).retryAfter =
      if call.increment ≤ call.tolerance then call.wait tatVal now
      else Duration.seconds (-1) := by
  -- The increment is compared exactly, and the difference is negated.
  have compared : call.limiter.increment call.quantity ≤ call.limiter.delayVariationTolerance ↔
      call.increment ≤ call.tolerance := by
    rw [Duration.le_iff, limiter_tolerance, limiter_increment]
  simp only [RateLimiter.blocked, compared]
  congr 1
  ext
  simp only [wait_nanos, Duration.neg_nanos, RateLimiter.diff, OffsetDateTime.sub_nanos,
    OffsetDateTime.sub_span_nanos, newTat_nanos, limiter_tolerance, limiter_increment]
  omega

/-- What a call may report as its wait on a store, given whether it is limited. -/
structure ReportsWait (call : AcceptedCall) (store : MemoryStore) (key : String)
    (now : OffsetDateTime) (limited : Bool) (retryAfter : Duration) : Prop where
  /-- Any other wait than minus one second ends exactly when the call is admitted. -/
  exact_ : limited = true → retryAfter ≠ Duration.seconds (-1) → Duration.zero < retryAfter ∧
    (∀ later, now + retryAfter ≤ later → (call.on store key later).1.limited = some false) ∧
    ∀ later, now ≤ later → later < now + retryAfter →
      (call.on store key later).1.limited = some true
  /-- A call that waits minus one second is never admitted. -/
  never : limited = true → retryAfter = Duration.seconds (-1) →
    ∀ store key later, (call.on store key later).1.limited = some true
  admitted : limited = false → retryAfter = Duration.seconds (-1)

/-- Every call reports a wait that is exact, whatever its key holds and whatever its signs are. -/
theorem reports_wait (call : AcceptedCall) (store : MemoryStore) (key : String)
    (now : OffsetDateTime) :
    ∃ limited result, (call.on store key now).1 = some (.ok (limited, result)) ∧
      call.ReportsWait store key now limited result.retryAfter := by
  -- A refused call is told its wait if it has one, and an admitted call none.
  by_cases blocks :
      call.limiter.Blocks (call.limiter.increment call.quantity) (store.map key) now
  · refine ⟨true, _, congrArg Prod.fst (rateLimit_blocked call.accepted blocks), ?_⟩
    have reported := call.blocked_retryAfter (store.map key) now
    have refused := (call.blocks_iff _ _).mp blocks
    show call.ReportsWait store key now true (RateLimiter.blocked _ _ _ _).retryAfter
    rw [reported]
    by_cases within : call.increment ≤ call.tolerance
    · -- The schedule lies ahead of now, so that waiting for it makes the call pass.
      rw [if_pos within]
      have passes := Gcra.passes_iff_of_refused refused within
      have positive : Duration.zero < call.wait (store.map key) now := by
        rw [Duration.lt_iff, Duration.zero_nanos, wait_nanos]
        omega
      refine ⟨fun _ _ => ⟨positive, ?_, ?_⟩, ?_, nofun⟩
      · intro later reached
        rw [OffsetDateTime.le_iff, OffsetDateTime.add_nanos, wait_nanos] at reached
        have passed := (passes later.nanos).mpr (by omega)
        rw [on_limited, decide_eq_false (not_lt.mpr passed)]
      · intro later _ early
        rw [OffsetDateTime.lt_iff, OffsetDateTime.add_nanos, wait_nanos] at early
        have waits := mt (passes later.nanos).mp (by omega)
        rw [on_limited, decide_eq_true (not_le.mp waits)]
      · -- A wait of minus one second would not be positive.
        intro _ same
        rw [same] at positive
        exact absurd positive (by decide)
    · -- Beyond the tolerance nothing else is reported, and every schedule refuses.
      rw [if_neg within]
      refine ⟨fun _ other => absurd rfl other, ?_, nofun⟩
      intro _ _ store key later
      rw [on_limited, decide_eq_true (Gcra.refused_of_beyond _ _ (not_le.mp within))]
  · exact ⟨false, _, congrArg Prod.fst (rateLimit_granted call.accepted blocks), nofun, nofun,
      fun _ => rfl⟩

end AcceptedCall

end RedisCell
