import RedisCell.Cell.Run
import RedisCell.Gcra.Skew

/-! A command replicated verbatim: how far the replica's clock can carry it from the primary. -/

namespace RedisCell

open MemoryStore Gcra

/-- One command as the primary runs it and as its replica runs it, up to a lag later. -/
structure Replicated (quota : PositiveQuota) (lag : Int) where
  primary : Request
  replica : Request
  primary_quota : primary.quota = quota
  replica_quota : replica.quota = quota
  verbatim : replica.quantity = primary.quantity
  notBefore : primary.now.nanos ≤ replica.now.nanos
  within : replica.now.nanos ≤ primary.now.nanos + lag

namespace Replicated

variable {quota : PositiveQuota} {lag : Int}

/-- The two sides of a command make the same request up to a lag apart. -/
theorem skewed (command : Replicated quota lag) :
    Skewed lag command.primary.arrival command.replica.arrival where
  -- Both sides run the same command under one quota.
  cost := by simp only [Request.arrival, command.primary_quota, command.replica_quota,
    command.verbatim]
  tolerance := by simp only [Request.arrival, command.primary_quota, command.replica_quota]
  notBefore := command.notBefore
  within := command.within

/-- Two arrival times are both missing, or no further apart than a bound. -/
def Near (bound : Int) : Option Int → Option Int → Prop
  | none, none => True
  | some tat, some tat' => |tat - tat'| ≤ bound
  | _, _ => False

/-- Close schedules are near each other. -/
theorem near_of_close {lag peak : Int} {tat tat' : Option Int} (nonneg : 0 ≤ lag)
    (close : Close lag peak tat tat') : Near (lag + peak) tat tat' := by
  -- The two bounds of close schedules are one bound on their distance.
  cases tat with
  | none =>
    cases tat' with
    | none => trivial
    | some _ => exact close.elim
  | some first =>
    cases tat' with
    | none => exact close.elim
    | some second =>
      obtain ⟨behind, ahead⟩ := close
      exact abs_le.mpr ⟨by omega, by omega⟩

/--
A replica diverges by a bounded amount: after every run of commands both sides hold no arrival time,
or two that differ by no more than the lag and the largest increment.
-/
theorem replicas_stay_near (quota : PositiveQuota) (lag : Int) (nonneg : 0 ≤ lag) (key : String)
    (primary replica : MemoryStore) (absent : primary.map key = none)
    (absent' : replica.map key = none) (commands : List (Replicated quota lag)) (peak : Int)
    (bounded : ∀ command ∈ commands, command.primary.quantity.toInt ≤ peak) :
    Near (lag + quota.interval * peak)
      ((primary.afterCalls key (commands.map Replicated.primary)).tat key)
      ((replica.afterCalls key (commands.map Replicated.replica)).tat key) := by
  -- Two schedules that are close are near, so closeness is what is carried along.
  apply near_of_close nonneg
  rw [afterCalls_tat, afterCalls_tat]
  -- Both sides follow the virtual schedule, which nothing has started.
  have fresh : primary.tat key = none := by simp [tat, storedTat, absent]
  have fresh' : replica.tat key = none := by simp [tat, storedTat, absent']
  rw [fresh, fresh']
  apply close_after
  · simp only [List.map_map, List.forall₂_map_left_iff, List.forall₂_map_right_iff,
      List.forall₂_same]
    exact fun command _ => command.skewed
  · intro arrival member
    simp only [List.map_map, List.mem_map] at member
    obtain ⟨command, inside, rfl⟩ := member
    have cost : command.primary.arrival.cost =
        quota.interval * command.primary.quantity.toInt := by
      simp only [Request.arrival, command.primary_quota]
    exact cost.trans_le
      (mul_le_mul_of_nonneg_left (bounded command inside) quota.interval_pos.le)
  · trivial

/-- A whole burst at five seconds, which the replica runs at once. -/
def readmeBurst : Replicated readmeQuota 2000000000 where
  primary := { readmeRequest 5 with quantity := 16, nonneg := by decide, fits := by decide }
  replica := { readmeRequest 5 with quantity := 16, nonneg := by decide, fits := by decide }
  primary_quota := rfl
  replica_quota := rfl
  verbatim := rfl
  notBefore := by decide
  within := by decide

/-- Three tokens at ten seconds, which the replica takes two seconds later. -/
def readmeLater : Replicated readmeQuota 2000000000 where
  primary := readmeRequest 10
  replica := readmeRequest 12
  primary_quota := rfl
  replica_quota := rfl
  verbatim := rfl
  notBefore := by decide
  within := by decide

/-- What the primary refuses as too early, the replica admits, and they stay near. -/
theorem replicas_stay_near_readme :
    let commands := [readmeBurst, readmeLater]
    let primary := commands.map Replicated.primary
    let replica := commands.map Replicated.replica
    (trace "user123" MemoryStore.new primary).map (fun event => event.2.limited) =
        [some false, some true] ∧
      (trace "user123" MemoryStore.new replica).map (fun event => event.2.limited) =
        [some false, some false] ∧
      Near (2000000000 + readmeQuota.interval * 16)
        ((MemoryStore.new.afterCalls "user123" primary).tat "user123")
        ((MemoryStore.new.afterCalls "user123" replica).tat "user123") := by
  intro commands primary replica
  -- The later clock of the replica lets through what the primary has refused.
  refine ⟨by decide, by decide, ?_⟩
  apply replicas_stay_near readmeQuota 2000000000 (by omega) "user123" MemoryStore.new
    MemoryStore.new rfl rfl commands 16
  intro command member
  rcases List.mem_pair.mp member with rfl | rfl <;> decide

/-- At the last instants a stored value can count to, only the replica's arrival time wraps. -/
theorem wrapped_replica_diverges :
    let limiter := RateLimiter.new ⟨0, Rate.perPeriod 1000000000 (Duration.seconds 1)⟩
    let primary := MemoryStore.new.rateLimit limiter "user123" 1 ⟨2 ^ 64 - 2⟩
    let replica := MemoryStore.new.rateLimit limiter "user123" 1 ⟨2 ^ 64 - 1⟩
    limiter.emissionInterval.nanos = 1 ∧ limiter.delayVariationTolerance.nanos = 1 ∧
      [primary.1.limited, replica.1.limited] = [some false, some false] ∧
      primary.2.tat "user123" = some (2 ^ 64 - 1) ∧ replica.2.tat "user123" = some 0 ∧
      ¬Near (1 + 1 * 1) (primary.2.tat "user123") (replica.2.tat "user123") := by
  -- The replica's time is the first one past the last that a value can count to.
  intro limiter primary replica
  have first : primary.2.tat "user123" = some (2 ^ 64 - 1) := by decide
  have second : replica.2.tat "user123" = some 0 := by decide
  refine ⟨by decide, by decide, by decide, first, second, ?_⟩
  rw [first, second, Near]
  decide

end Replicated

end RedisCell
