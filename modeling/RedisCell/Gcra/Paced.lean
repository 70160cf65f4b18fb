import RedisCell.Gcra.Schedule
import Mathlib.Algebra.Order.Ring.Int
import Mathlib.Tactic.Linarith
import Mathlib.Tactic.Ring

/-! The densest run of arrivals: one burst of the whole tolerance, then one arrival each interval. -/

namespace Gcra

/-- An interval, and a tolerance that covers at least one of it. -/
structure Pace where
  interval : Int
  tolerance : Int
  nonneg : 0 ≤ interval
  covers : interval ≤ tolerance

namespace Pace

/-- The first arrival takes the whole tolerance, and each later one a single interval. -/
def arrival (pace : Pace) (index : Nat) : Arrival Int where
  now := index * pace.interval
  cost := if index = 0 then pace.tolerance else pace.interval
  tolerance := pace.tolerance
  nonneg := by
    split
    · exact pace.nonneg.trans pace.covers
    · exact pace.nonneg

/-- The burst conforms to a schedule that has not started. -/
theorem burst_conforms (pace : Pace) : Conforms none (pace.arrival 0) := by
  simp [Conforms, arrival]

/-- The burst leaves the schedule one tolerance ahead of the first instant. -/
theorem advance_burst (pace : Pace) : advance none (pace.arrival 0) = some pace.tolerance := by
  -- The burst costs one tolerance.
  rw [advance_conforming pace.burst_conforms]
  simp [arrival]

/-- Each later arrival starts where the one before it left the schedule. -/
theorem due_later (pace : Pace) (index : Nat) :
    due (some (pace.tolerance + index * pace.interval)) (pace.arrival (index + 1)).now =
      pace.tolerance + index * pace.interval := by
  -- The schedule lies ahead of now because the tolerance covers an interval.
  have step : ((index + 1 : Nat) : Int) * pace.interval = index * pace.interval + pace.interval := by
    push_cast
    ring
  have covered := pace.covers
  simp only [arrival, due_some, step]
  omega

/-- Each later arrival fills the schedule up to its tolerance again. -/
theorem later_conforms (pace : Pace) (index : Nat) :
    Conforms (some (pace.tolerance + index * pace.interval)) (pace.arrival (index + 1)) := by
  -- One interval has passed, which pays for exactly one more arrival.
  rw [Conforms, due_later]
  simp only [arrival, if_neg (Nat.succ_ne_zero index)]
  push_cast
  linarith

/-- Each later arrival moves the schedule by one interval. -/
theorem advance_later (pace : Pace) (index : Nat) :
    advance (some (pace.tolerance + index * pace.interval)) (pace.arrival (index + 1)) =
      some (pace.tolerance + (index + 1 : Nat) * pace.interval) := by
  -- The schedule has kept ahead of the clock by the whole tolerance.
  rw [advance_conforming (pace.later_conforms index), due_later]
  simp only [arrival, if_neg (Nat.succ_ne_zero index), Option.some.injEq]
  push_cast
  ring

/-- A schedule that some paced arrivals have left admits every arrival that continues the pace. -/
theorem admitted_later (pace : Pace) (index length : Nat) :
    admitted (some (pace.tolerance + index * pace.interval))
        ((List.range' (index + 1) length).map pace.arrival) =
      (List.range' (index + 1) length).map pace.arrival := by
  -- Every arrival conforms in turn, so the run is admitted whole.
  induction length generalizing index with
  | zero => rfl
  | succ length ih =>
    simp only [List.range'_succ, List.map_cons, admitted]
    rw [if_pos (pace.later_conforms index), advance_later, ih]

/-- A schedule that has not started admits the whole paced run. -/
theorem admitted_paced (pace : Pace) (length : Nat) :
    admitted none ((List.range (length + 1)).map pace.arrival) =
      (List.range (length + 1)).map pace.arrival := by
  -- The burst comes first, and every later arrival continues its pace.
  rw [List.range_eq_range', List.range'_succ, List.map_cons, admitted, if_pos pace.burst_conforms,
    advance_burst]
  have later := pace.admitted_later 0 length
  simp only [Nat.cast_zero, zero_mul, add_zero] at later
  rw [later]

/-- A paced run costs its tolerance and one interval for each arrival after the burst. -/
theorem total_paced (pace : Pace) (length : Nat) :
    total ((List.range (length + 1)).map pace.arrival) =
      pace.tolerance + length * pace.interval := by
  -- Each arrival after the burst adds one interval.
  induction length with
  | zero => simp [arrival]
  | succ length ih =>
    rw [List.range_succ, List.map_append, total, List.map_append, List.sum_append]
    rw [total] at ih
    rw [ih]
    simp only [arrival, List.map_cons, List.map_nil, List.sum_singleton,
      if_neg (Nat.succ_ne_zero length)]
    push_cast
    ring

end Pace

end Gcra
