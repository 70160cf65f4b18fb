import RedisCell.Cell.Run

/-! What an admitted call stores stands for the arrival time it computed. -/

namespace RedisCell

open MemoryStore

/-- Decoding a stored value and encoding it again gives that value. -/
theorem nanoseconds_fromNanoseconds (value : UInt64) :
    nanoseconds (fromNanoseconds value) = value := by
  -- The decoded count already lies below the width it is reduced by.
  have bounded := value.toNat_lt
  have count := nanoseconds_toNat (fromNanoseconds value)
  rw [fromNanoseconds_nanos, Int.emod_eq_of_lt (by omega) (by omega)] at count
  exact UInt64.toNat.inj (by omega)

/-- A call against the memory store is admitted exactly when its pass does not block. -/
theorem rateLimit_admitted_iff {limiter : RateLimiter}
    (nonzero : limiter.emissionInterval.nanos ≠ 0) (store : MemoryStore) (key : String)
    (quantity : Int64) (now : OffsetDateTime) :
    (store.rateLimit limiter key quantity now).1.admitted = true ↔
      ¬limiter.Blocks (limiter.increment quantity) (store.map key) now := by
  -- The flag is false exactly when the pass does not block.
  rw [Outcome.admitted, rateLimit_limited nonzero]
  simp

/--
Decoding then encoding is the identity, and an admitted call stores the arrival time it computed
exactly when its increment does not reach back past the epoch.
-/
theorem stored_arrival_iff (quota : RateQuota) (quantity : Int64) (now : OffsetDateTime)
    (store : MemoryStore) (key : String) (accepted : quota.maxRate.period.nanos ≠ 0)
    (toleranceFits : FitsI64 (quota.maxRate.period.nanos * (quota.maxBurst.toInt + 1)))
    (incrementFits : FitsI64 (quota.maxRate.period.nanos * quantity.toInt))
    (afterEpoch : 0 ≤ now.nanos) (withinWord : now.nanos < 2 ^ 63)
    (admitted :
      (store.rateLimit (RateLimiter.new quota) key quantity now).1.admitted = true) :
    (∀ value, nanoseconds (fromNanoseconds value) = value) ∧
      ∃ written, (store.rateLimit (RateLimiter.new quota) key quantity now).2 =
          store.insert key written ∧
        (fromNanoseconds written = RateLimiter.newTat
            ((RateLimiter.new quota).increment quantity) (store.map key) now ∧
          fromNanoseconds written ≤ now + (RateLimiter.new quota).delayVariationTolerance ↔
        -(quota.maxRate.period.nanos * quantity.toInt) ≤
          Gcra.due (storedTat (store.map key)) now.nanos) := by
  -- The round trip does not depend on the call, which was admitted and therefore writes.
  refine ⟨nanoseconds_fromNanoseconds, ?_⟩
  have passes := (rateLimit_admitted_iff accepted store key quantity now).mp admitted
  rw [rateLimit_granted accepted passes]
  refine ⟨_, rfl, ?_⟩
  -- Both the tolerance and the increment are exact.
  have tolerance : (RateLimiter.new quota).delayVariationTolerance.nanos =
      quota.maxRate.period.nanos * (quota.maxBurst.toInt + 1) := by
    rw [RateLimiter.new_tolerance]
    exact toInt_ofInt_of_fits toleranceFits
  have increment : ((RateLimiter.new quota).increment quantity).nanos =
      quota.maxRate.period.nanos * quantity.toInt := by
    rw [RateLimiter.increment_nanos]
    exact toInt_ofInt_of_fits incrementFits
  have scheduled := newTat_nanos ((RateLimiter.new quota).increment quantity) (store.map key) now
  rw [RateLimiter.blocks_iff, tolerance, not_lt] at passes
  rw [increment] at scheduled
  rw [fromNanoseconds_nanoseconds_iff, OffsetDateTime.le_iff, OffsetDateTime.add_nanos,
    fromNanoseconds_nanos, nanoseconds_toNat, tolerance]
  -- Admission keeps the new time within one tolerance of now, so only the epoch can be passed.
  have reach := toleranceFits.2
  constructor
  · intro holds
    obtain ⟨⟨notBefore, _⟩, _⟩ := holds
    omega
  · intro notBefore
    rw [Int.emod_eq_of_lt (by omega) (by omega)]
    exact ⟨⟨by omega, by omega⟩, passes⟩

/-- The documented call stores the arrival time that it computes. -/
theorem stored_arrival_readme :
    ∃ written, (MemoryStore.new.rateLimit readmeQuota.limiter "user123" 3 ⟨1000000000⟩).2 =
        MemoryStore.new.insert "user123" written ∧
      fromNanoseconds written =
        RateLimiter.newTat (readmeQuota.limiter.increment 3) (MemoryStore.new.map "user123")
          ⟨1000000000⟩ := by
  -- The horizon of the call is far below the last instant that a value can count to.
  obtain ⟨written, stored, exact_⟩ :=
    (stored_arrival_iff readmeQuota.quota 3 ⟨1000000000⟩ MemoryStore.new "user123"
      (by decide) (by decide) (by decide) (by decide) (by decide) (by decide)).2
  exact ⟨written, stored, (exact_.mpr (by decide)).1⟩

/-- A negative quantity can store an arrival time of the distant future. -/
theorem stored_arrival_wraps :
    let limiter := RateLimiter.new ⟨15, Rate.perPeriod 30 (Duration.seconds 60)⟩
    let now : OffsetDateTime := ⟨1700000000000000000⟩
    let call := MemoryStore.new.rateLimit limiter "user123" (-900000000) now
    call.1.admitted = true ∧
      (RateLimiter.newTat (limiter.increment (-900000000)) none now).nanos =
        -100000000000000000 ∧
      (call.2.map "user123").map (fun written => (fromNanoseconds written).nanos) =
        some 18346744073709551616 := by
  -- The new time lies before the epoch, and is counted modulo the width.
  decide

end RedisCell
