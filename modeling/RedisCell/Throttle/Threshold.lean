import RedisCell.Cell.QuotientLaws
import RedisCell.Throttle.Span

/-! The limit of a command as the threshold of what it admits. -/

namespace RedisCell

open MemoryStore

namespace ThrottleCommand.Arguments

/--
The limit is the threshold of a command at an instant: a fresh key admits exactly the quantities up
to it, and no key admits a larger one.
-/
def LimitIsThreshold (args : Arguments) (now : OffsetDateTime) : Prop :=
  (∀ store : MemoryStore, store.map args.key = none →
      ((store.rateLimit args.limiter args.key args.quantity now).1.limited = some false ↔
        args.quantity.toInt ≤ args.maxBurst.toInt + 1)) ∧
    (args.maxBurst.toInt + 1 < args.quantity.toInt → ∀ store : MemoryStore,
      (store.rateLimit args.limiter args.key args.quantity now).1.limited = some true)

/-- An interval that does not vanish takes its sign from the signs of its two arguments. -/
theorem interval_pos_iff {args : Arguments} (accepted : args.interval ≠ 0) :
    0 < args.interval ↔ (0 < args.count.toInt ↔ 0 < args.period.toInt) := by
  -- Neither argument is zero, since the interval does not vanish.
  have count := fitsI64_toInt args.count
  have period := fitsI64_toInt args.period
  have nanos : (Duration.seconds args.period).nanos = args.period.toInt * 1000000000 :=
    Duration.seconds_nanos _
  unfold interval Rate.perPeriod Duration.wholeNanoseconds at accepted ⊢
  simp only [nanos] at accepted ⊢
  split at accepted
  · exact absurd rfl accepted
  · rename_i present
    rw [not_or, ← Int64.toInt_inj] at present
    rw [if_neg (by rwa [not_or, ← Int64.toInt_inj])]
    -- Neither operand is zero, and both fit into a hundred bits.
    have sign := quotientF64_pos_iff (by omega) (by omega) present.2 present.1 accepted
    rw [Duration.nanoseconds_nanos, sign]
    omega

/-- A command is limited when the end of its request lies past now by more than the tolerance. -/
theorem Exact.limited {args : Arguments} (exact_ : args.Exact) (accepted : args.interval ≠ 0)
    (store : MemoryStore) (now : OffsetDateTime) :
    (store.rateLimit args.limiter args.key args.quantity now).1.limited =
      some (decide (args.interval * (args.maxBurst.toInt + 1) <
        args.span (store.map args.key) now)) := by
  -- The limiter blocks on the same comparison.
  rw [rateLimit_limited accepted]
  exact congrArg some (decide_eq_decide.mpr (exact_.blocks_iff _ _))

/-- A key without a value is charged from now. -/
theorem span_fresh (args : Arguments) (now : OffsetDateTime) :
    args.span none now = args.interval * args.quantity.toInt := by
  simp [span, storedTat]

/--
The limit of a command is its threshold exactly when its count and its period have one sign, or when
it asks for just the limit.
-/
theorem limitIsThreshold_iff (args : Arguments) (now : OffsetDateTime)
    (accepted : args.interval ≠ 0) (exact_ : args.Exact) :
    args.LimitIsThreshold now ↔
      ((0 < args.count.toInt ↔ 0 < args.period.toInt) ∨
        args.quantity.toInt = args.maxBurst.toInt + 1) := by
  -- The signs of count and period agree exactly when the interval is positive.
  rw [← interval_pos_iff accepted]
  unfold LimitIsThreshold
  simp only [exact_.limited accepted, Option.some.injEq, decide_eq_false_iff_not,
    decide_eq_true_eq, not_lt]
  constructor
  · intro holds
    obtain ⟨fresh, _⟩ := holds
    by_contra neither
    rw [not_or] at neither
    have negative : args.interval < 0 := lt_of_le_of_ne (not_lt.mp neither.1) accepted
    -- On a fresh key a negative interval admits the quantities from the limit on.
    have inverted : args.interval * args.quantity.toInt ≤
        args.interval * (args.maxBurst.toInt + 1) ↔
          args.maxBurst.toInt + 1 ≤ args.quantity.toInt := mul_le_mul_left_of_neg negative
    have admits := fresh MemoryStore.new rfl
    rw [show MemoryStore.new.map args.key = none from rfl, span_fresh, inverted] at admits
    have unequal := neither.2
    omega
  · intro holds
    have ordered : args.interval * args.quantity.toInt ≤
        args.interval * (args.maxBurst.toInt + 1) ↔
          args.quantity.toInt ≤ args.maxBurst.toInt + 1 := by
      rcases holds with positive | same
      · exact mul_le_mul_iff_of_pos_left positive
      · simp [same]
    constructor
    · intro store absent
      rw [absent, span_fresh]
      exact ordered
    · -- Whatever the key holds, the schedule is not behind now.
      intro exceeds store
      have ahead := Gcra.le_due (storedTat (store.map args.key)) now.nanos
      rw [← not_le, ← ordered, not_le] at exceeds
      simp only [span]
      omega

/-- The limit of the documented command is its threshold. -/
theorem limitIsThreshold_readme :
    readmeArguments.LimitIsThreshold ⟨7⟩ ↔
      ((0 < readmeArguments.count.toInt ↔ 0 < readmeArguments.period.toInt) ∨
        readmeArguments.quantity.toInt = readmeArguments.maxBurst.toInt + 1) :=
  limitIsThreshold_iff readmeArguments ⟨7⟩ (by decide) ⟨by decide, by decide⟩

/-- A negative count turns the limiter around: two tokens are admitted where none are refused. -/
theorem negative_count_inverts :
    let nothing : Arguments := ⟨"user123", 0, -1, 1, 0⟩
    let two : Arguments := ⟨"user123", 0, -1, 1, 2⟩
    two.interval = -1000000000 ∧
      (MemoryStore.new.rateLimit nothing.limiter nothing.key nothing.quantity ⟨0⟩).1.limited = some true ∧
      (MemoryStore.new.rateLimit two.limiter two.key two.quantity ⟨0⟩).1.limited = some false ∧
      ¬two.LimitIsThreshold ⟨0⟩ := by
  -- The first three parts are computed.
  have admitted : (MemoryStore.new.rateLimit (⟨"user123", 0, -1, 1, 2⟩ : Arguments).limiter
      "user123" 2 ⟨0⟩).1.limited = some false := by decide
  refine ⟨by decide, by decide, admitted, ?_⟩
  -- Two tokens exceed the limit of one.
  intro threshold
  have refused := threshold.2 (by decide) MemoryStore.new
  rw [admitted] at refused
  cases refused

end ThrottleCommand.Arguments

end RedisCell
