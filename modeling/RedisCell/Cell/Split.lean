import RedisCell.Cell.Peek
import Mathlib.Algebra.Order.BigOperators.Group.List

/-! Requests in parts: calls made at one instant do what a single call for all of them does. -/

namespace RedisCell

open Gcra

/-- Quantities taken in turn at one instant, whose total a limiter charges without wrapping. -/
structure Batch where
  limiter : RateLimiter
  quantities : List Int64
  now : OffsetDateTime
  interval_pos : 0 < limiter.emissionInterval.nanos
  nonempty : quantities ≠ []
  nonneg : ∀ quantity ∈ quantities, 0 ≤ quantity.toInt
  fits : FitsI64 (limiter.emissionInterval.nanos * (quantities.map Int64.toInt).sum)

namespace Batch

/-- One call for each quantity. -/
def parts (batch : Batch) : List Visit :=
  batch.quantities.map fun quantity => ⟨batch.limiter, quantity, batch.now⟩

/-- A single call for the sum of all quantities. -/
def whole (batch : Batch) : Visit :=
  ⟨batch.limiter, Int64.ofInt (batch.quantities.map Int64.toInt).sum, batch.now⟩

/-- The same quantities in another order. -/
def Reorders (other batch : Batch) : Prop :=
  other.limiter = batch.limiter ∧ other.now = batch.now ∧
    other.quantities.Perm batch.quantities

end Batch

namespace MemoryStore

/-- What the calls of a run answer, in order. -/
def answers (key : String) : MemoryStore → List Visit → List Outcome
  | _, [] => []
  | store, visit :: rest =>
    (store.visit key visit).1 :: answers key (store.visit key visit).2 rest

/-- Every call of a run was answered and not limited. -/
def AdmitsAll (store : MemoryStore) (key : String) (visits : List Visit) : Prop :=
  ∀ outcome ∈ store.answers key visits, outcome.limited = some false

instance (store : MemoryStore) (key : String) (visits : List Visit) :
    Decidable (store.AdmitsAll key visits) :=
  inferInstanceAs (Decidable (∀ outcome ∈ _, _ = _))

/-- Two runs leave the same store, and their last calls are answered alike. -/
def EndsAlike (store : MemoryStore) (key : String) (visits visits' : List Visit) : Prop :=
  store.afterVisits key visits = store.afterVisits key visits' ∧
    (store.answers key visits).getLast? = (store.answers key visits').getLast?

/-- Making calls in parts is as good as making a single one. -/
def SplitsAlike (store : MemoryStore) (key : String) (batch : Batch) : Prop :=
  (store.AdmitsAll key batch.parts ↔ store.AdmitsAll key [batch.whole]) ∧
    (store.AdmitsAll key [batch.whole] → store.EndsAlike key batch.parts [batch.whole])

/-- The value written last is the one that stays. -/
@[simp] theorem insert_insert (store : MemoryStore) (key : String) (first second : UInt64) :
    (store.insert key first).insert key second = store.insert key second := by
  simp [insert]

/-- All visits are admitted when the first is, and then the rest are. -/
theorem admitsAll_cons {store : MemoryStore} {key : String} {visit : Visit} {rest : List Visit} :
    store.AdmitsAll key (visit :: rest) ↔ (store.visit key visit).1.limited = some false ∧
      (store.visit key visit).2.AdmitsAll key rest := by
  simp [AdmitsAll, answers]

variable {store : MemoryStore} {key : String}

section Parts

variable {limiter : RateLimiter} {first second whole : Int64} {now : OffsetDateTime}

/-- Two quantities that add to the schedule what a single one does. -/
structure Parts (limiter : RateLimiter) (first second whole : Int64) : Prop where
  first_nonneg : 0 ≤ (limiter.increment first).nanos
  second_nonneg : 0 ≤ (limiter.increment second).nanos
  whole_eq : (limiter.increment whole).nanos =
    (limiter.increment first).nanos + (limiter.increment second).nanos

/-- A part that passes leaves a value from which the other part schedules what the whole does. -/
theorem Parts.newTat_eq (parts : Parts limiter first second whole) (counts : limiter.Counts now)
    {tatVal : Option UInt64} (passes : ¬limiter.Blocks (limiter.increment first) tatVal now) :
    RateLimiter.newTat (limiter.increment second)
        (some (nanoseconds (RateLimiter.newTat (limiter.increment first) tatVal now))) now =
      RateLimiter.newTat (limiter.increment whole) tatVal now := by
  -- The time that the first part schedules is counted exactly, and due at this very instant.
  have counted := limiter.nanoseconds_newTat parts.first_nonneg counts passes
  have moved := due_moved (storedTat tatVal) now.nanos parts.first_nonneg
  ext
  rw [newTat_nanos, newTat_nanos, storedTat, Option.map_some, counted, moved, parts.whole_eq,
    add_assoc]

/-- The whole passes exactly when one part does, and the other one does after it. -/
theorem Parts.limited_iff (parts : Parts limiter first second whole)
    (nonzero : limiter.emissionInterval.nanos ≠ 0) (counts : limiter.Counts now)
    (store : MemoryStore) (key : String) :
    (store.visit key ⟨limiter, whole, now⟩).1.limited = some false ↔
      (store.visit key ⟨limiter, first, now⟩).1.limited = some false ∧
        ((store.visit key ⟨limiter, first, now⟩).2.visit key ⟨limiter, second, now⟩).1.limited =
          some false := by
  -- The whole ends where the second part ends after the first.
  have nonneg := parts.second_nonneg
  simp only [visit, rateLimit_limited nonzero, Option.some.injEq, decide_eq_false_iff_not]
  by_cases blocks : limiter.Blocks (limiter.increment first) (store.map key) now
  · -- The whole ends no earlier than its first part.
    have refused : limiter.Blocks (limiter.increment whole) (store.map key) now := by
      rw [RateLimiter.blocks_iff, newTat_nanos] at blocks ⊢
      rw [parts.whole_eq]
      omega
    simp [blocks, refused]
  · have same := parts.newTat_eq counts blocks
    rw [rateLimit_granted nonzero blocks, insert_self,
      limiter.blocks_of_newTat same]
    exact (and_iff_right blocks).symm

/-- After one part, the other one is answered as the whole is, and leaves the same store. -/
theorem Parts.visit_eq (parts : Parts limiter first second whole)
    (nonzero : limiter.emissionInterval.nanos ≠ 0) (counts : limiter.Counts now)
    (admitted : (store.visit key ⟨limiter, whole, now⟩).1.limited = some false) :
    (store.visit key ⟨limiter, first, now⟩).2.visit key ⟨limiter, second, now⟩ =
      store.visit key ⟨limiter, whole, now⟩ := by
  -- Both parts pass, and the second one ends where the whole does.
  have split := (parts.limited_iff nonzero counts store key).mp admitted
  simp only [visit, rateLimit_limited nonzero, Option.some.injEq, decide_eq_false_iff_not]
    at admitted split ⊢
  obtain ⟨passes, passes'⟩ := split
  have same := parts.newTat_eq counts passes
  rw [rateLimit_granted nonzero passes] at passes' ⊢
  -- Both write the same time, and report it alike.
  rw [rateLimit_granted nonzero passes', rateLimit_granted nonzero admitted, insert_self,
    insert_insert, RateLimiter.granted, RateLimiter.granted, same]

end Parts

/-- A single visit is all there is to admit. -/
@[simp] theorem admitsAll_singleton {visit : Visit} :
    store.AdmitsAll key [visit] ↔ (store.visit key visit).1.limited = some false := by
  simp [AdmitsAll, answers]

/-- A call before two runs that end alike is forgotten by the end. -/
theorem endsAlike_cons {visit last whole : Visit} {rest : List Visit} (some_ : rest ≠ [])
    (ends : (store.visit key visit).2.EndsAlike key rest [last])
    (same : (store.visit key visit).2.visit key last = store.visit key whole) :
    store.EndsAlike key (visit :: rest) [whole] := by
  -- The first call is not the last one, since others follow it.
  obtain ⟨left, answered⟩ := ends
  refine ⟨left.trans (congrArg Prod.snd same), ?_⟩
  obtain ⟨second, others, rfl⟩ := List.exists_cons_of_ne_nil some_
  simp only [answers, List.getLast?_cons_cons, List.getLast?_singleton] at answered ⊢
  rw [answered, same]

end MemoryStore

namespace Batch

/-- The sum of quantities that take nothing back is not negative. -/
theorem sum_nonneg {quantities : List Int64}
    (nonneg : ∀ quantity ∈ quantities, 0 ≤ quantity.toInt) :
    0 ≤ (quantities.map Int64.toInt).sum := by
  -- Every summand is one of the quantities.
  apply List.sum_nonneg
  intro value member
  obtain ⟨quantity, among, rfl⟩ := List.mem_map.mp member
  exact nonneg quantity among

/-- A sum that is charged without wrapping is charged by its exact value. -/
theorem increment_nanos {limiter : RateLimiter} {sum : Int}
    (interval_pos : 0 < limiter.emissionInterval.nanos) (nonneg : 0 ≤ sum)
    (fits : FitsI64 (limiter.emissionInterval.nanos * sum)) :
    (limiter.increment (Int64.ofInt sum)).nanos = limiter.emissionInterval.nanos * sum := by
  -- A sum costs at least itself, so it is a word.
  have self := le_mul_of_one_le_left nonneg interval_pos
  have word : (Int64.ofInt sum).toInt = sum := toInt_ofInt_of_fits ⟨by omega, by omega⟩
  rw [RateLimiter.increment_nanos, word]
  exact toInt_ofInt_of_fits fits

/-- The first quantity and the sum of the others add to the schedule what the whole sum does. -/
theorem parts_of_cons {limiter : RateLimiter} {first : Int64} {rest : List Int64}
    (interval_pos : 0 < limiter.emissionInterval.nanos)
    (nonneg : ∀ quantity ∈ first :: rest, 0 ≤ quantity.toInt)
    (fits : FitsI64 (limiter.emissionInterval.nanos * ((first :: rest).map Int64.toInt).sum)) :
    FitsI64 (limiter.emissionInterval.nanos * (rest.map Int64.toInt).sum) ∧
      MemoryStore.Parts limiter first (Int64.ofInt (rest.map Int64.toInt).sum)
        (Int64.ofInt ((first :: rest).map Int64.toInt).sum) := by
  -- Both sums are within the one product that fits.
  have own : 0 ≤ first.toInt := nonneg first List.mem_cons_self
  have others := sum_nonneg fun quantity member => nonneg quantity (List.mem_cons_of_mem _ member)
  have all := sum_nonneg nonneg
  have cost := mul_nonneg interval_pos.le own
  have cost' := mul_nonneg interval_pos.le others
  have whole := increment_nanos interval_pos all fits
  rw [List.map_cons, List.sum_cons] at fits whole ⊢
  rw [mul_add] at fits whole
  -- Neither part costs more than the whole.
  have first_fits : FitsI64 (limiter.emissionInterval.nanos * first.toInt) :=
    ⟨by omega, by omega⟩
  have rest_fits : FitsI64 (limiter.emissionInterval.nanos * (rest.map Int64.toInt).sum) :=
    ⟨by omega, by omega⟩
  have charged := increment_nanos interval_pos own first_fits
  have charged' := increment_nanos interval_pos others rest_fits
  rw [Int64.ofInt_toInt] at charged
  refine ⟨rest_fits, by omega, by omega, by omega⟩

end Batch

namespace MemoryStore

variable {store : MemoryStore} {key : String} {batch other : Batch}

/-- Splitting a request into parts changes nothing. -/
theorem splitsAlike (batch : Batch) (counts : batch.limiter.Counts batch.now)
    (store : MemoryStore) (key : String) : store.SplitsAlike key batch := by
  -- The induction is on the parts, from the store that the first of them leaves.
  obtain ⟨limiter, quantities, now, interval_pos, some_, nonneg, fits⟩ := batch
  -- The first part leaves a store on which the others do as their own sum does.
  induction quantities generalizing store with
  | nil => exact absurd rfl some_
  | cons first rest ih =>
    cases rest with
    | nil =>
      have alone : Int64.ofInt ([first].map Int64.toInt).sum = first := by simp
      simp only [SplitsAlike, Batch.parts, Batch.whole, alone]
      exact ⟨Iff.rfl, fun _ => ⟨rfl, rfl⟩⟩
    | cons second others =>
      obtain ⟨fits', parts⟩ := Batch.parts_of_cons interval_pos nonneg fits
      have nonneg' := fun quantity member => nonneg quantity (List.mem_cons_of_mem _ member)
      obtain ⟨admits, ends⟩ :=
        ih (store.visit key ⟨limiter, first, now⟩).2 (List.cons_ne_nil _ _) nonneg' fits' counts
      rw [admitsAll_singleton] at admits ends
      have nonzero := ne_of_gt interval_pos
      have split := parts.limited_iff nonzero counts store key
      rw [SplitsAlike, admitsAll_singleton]
      refine ⟨?_, fun admitted => ?_⟩
      · exact admitsAll_cons.trans ((and_congr_right fun _ => admits).trans split.symm)
      · exact endsAlike_cons (List.cons_ne_nil _ _) (ends (split.mp admitted).2)
          (parts.visit_eq nonzero counts admitted)

/--
Splitting a request does not matter: the parts are all admitted exactly when the whole is, they then
leave the same store and end with the same answer, and so in any order.
-/
theorem parts_as_whole (store : MemoryStore) (key : String) (batch : Batch)
    (counts : batch.limiter.Counts batch.now) :
    store.SplitsAlike key batch ∧ ∀ other : Batch, other.Reorders batch →
      (store.AdmitsAll key other.parts ↔ store.AdmitsAll key batch.parts) ∧
        (store.AdmitsAll key batch.parts → store.EndsAlike key other.parts batch.parts) := by
  -- Every order of the parts has the same sum, and so the same whole.
  obtain ⟨admits, ends⟩ := splitsAlike batch counts store key
  refine ⟨⟨admits, ends⟩, fun other reorders => ?_⟩
  obtain ⟨limiter, now, permuted⟩ := reorders
  have counts' : other.limiter.Counts other.now := by rwa [limiter, now]
  obtain ⟨admits', ends'⟩ := splitsAlike other counts' store key
  -- The sum forgets the order, so both are as good as the same whole.
  have whole : other.whole = batch.whole := by
    rw [Batch.whole, Batch.whole, limiter, now, (permuted.map Int64.toInt).sum_eq]
  rw [whole] at admits' ends'
  refine ⟨admits'.trans admits.symm, fun admitted => ?_⟩
  obtain ⟨left, answered⟩ := ends (admits.mp admitted)
  obtain ⟨left', answered'⟩ := ends' (admits.mp admitted)
  exact ⟨left'.trans left.symm, answered'.trans answered.symm⟩

/-- One token and then two more, at five nanoseconds. -/
def readmeBatch : Batch where
  limiter := readmeQuota.limiter
  quantities := [1, 2]
  now := ⟨5⟩
  interval_pos := readmeQuota.interval_pos
  nonempty := List.cons_ne_nil _ _
  nonneg := by simp
  fits := by decide

/-- Two documented calls of one token and of two end as one of three. -/
theorem parts_as_whole_readme :
    MemoryStore.new.EndsAlike "user123" readmeBatch.parts [readmeBatch.whole] := by
  -- The first part is admitted on an empty store, and so are both.
  have counts : readmeBatch.limiter.Counts readmeBatch.now := ⟨by decide, by decide⟩
  have alike := (parts_as_whole MemoryStore.new "user123" readmeBatch counts).1
  exact alike.2 (admitsAll_singleton.mpr (by decide))

/-- Nothing and then one token, of one each nanosecond, just before the epoch. -/
def earlyBatch : Batch where
  limiter := RateLimiter.new ⟨0, Rate.perPeriod 1000000000 (Duration.seconds 1)⟩
  quantities := [0, 1]
  now := ⟨-1⟩
  interval_pos := by decide
  nonempty := List.cons_ne_nil _ _
  nonneg := by simp
  fits := by decide

/-- One such token and then another one, at the last instant that a value counts to. -/
def lateBatch : Batch where
  limiter := earlyBatch.limiter
  quantities := [1, 1]
  now := ⟨18446744073709551615⟩
  interval_pos := earlyBatch.interval_pos
  nonempty := List.cons_ne_nil _ _
  nonneg := by simp
  fits := by decide

/--
Where a value cannot count the time, the parts differ from the whole: before the epoch they are not
all admitted, and at the last instant of a value the whole is not.
-/
theorem wrapped_parts_differ :
    ¬MemoryStore.new.SplitsAlike "user123" earlyBatch ∧
      ¬MemoryStore.new.SplitsAlike "user123" lateBatch := by
  have earlyWhole : MemoryStore.new.AdmitsAll "user123" [earlyBatch.whole] := by decide
  have earlyParts : ¬MemoryStore.new.AdmitsAll "user123" earlyBatch.parts := by decide
  have lateWhole : ¬MemoryStore.new.AdmitsAll "user123" [lateBatch.whole] := by decide
  have lateParts : MemoryStore.new.AdmitsAll "user123" lateBatch.parts := by decide
  -- Each part is charged to a value that has wrapped.
  exact ⟨fun alike => earlyParts (alike.1.mpr earlyWhole),
    fun alike => lateWhole (alike.1.mp lateParts)⟩

end MemoryStore

end RedisCell
