import RedisCell.Cell.Remaining
import Mathlib.Order.Bounds.Basic

/-! The time that a call reports until its key is back at full capacity. -/

namespace RedisCell

open Gcra MemoryStore

namespace Demand

/-- A call for the whole limit, made after a wait. -/
def full (demand : Demand) (wait : Int) : Demand :=
  { demand.ofQuantity demand.quota.limit (Int.one_nonneg.trans demand.quota.limit_pos) le_rfl with
    now := demand.now + Duration.new 0 wait }

/--
A call that passes schedules a time that a value counts, unless the key was idle and stays so.
A call that is refused finds no time that has passed.
-/
def Resets (demand : Demand) (tat : Option Int) : Prop :=
  let scheduled := due tat demand.now.nanos + demand.arrival.cost
  if Conforms tat demand.arrival then
    0 ≤ scheduled ∧ (scheduled < 2 ^ 64 ∨ scheduled = demand.now.nanos)
  else ∀ stored, tat = some stored → demand.now.nanos ≤ stored

end Demand

namespace MemoryStore

variable {store : MemoryStore} {key : String} {demand : Demand}

/-- A call for the whole limit passes once nothing of the schedule lies ahead. -/
theorem full_admitted (store : MemoryStore) (key : String) (demand : Demand) (wait : Int) :
    (store.answer key (demand.full wait)).1.limited = some false ↔
      due (store.tat key) (demand.now.nanos + wait) + demand.arrival.tolerance ≤
        demand.now.nanos + wait + demand.arrival.tolerance := by
  -- The whole limit costs the whole tolerance.
  have least : 0 ≤ demand.quota.limit := le_trans Int.one_nonneg demand.quota.limit_pos
  have limit := demand.quota.toInt_of_within least le_rfl
  have cost : (demand.full wait).arrival.cost = demand.arrival.tolerance :=
    congrArg (demand.quota.interval * ·) limit
  have instant : (demand.full wait).arrival.now = demand.now.nanos + wait := by
    simp [Demand.arrival, Demand.full, Duration.new]
  rw [answer_limited, Option.some.injEq, Bool.not_eq_false', decide_eq_true_eq, Conforms, cost,
    instant]
  rfl

/--
The time that a call reports until its reset is exact: it is the least one, and not negative, after
which a call for the whole limit is admitted.
-/
def TellsReset (store : MemoryStore) (key : String) (demand : Demand) : Prop :=
  ∃ limited result, (store.answer key demand).1 = some (.ok (limited, result)) ∧
    IsLeast {wait | 0 ≤ wait ∧
        ((store.answer key demand).2.answer key (demand.full wait)).1.limited = some false}
      result.resetAfter.nanos

/-- The reported time is exact when the call sees its key as far below the limit as it leaves it. -/
theorem tellsReset_iff_slack (store : MemoryStore) (key : String) (demand : Demand) :
    store.TellsReset key demand ↔
      demand.slack (store.tat key) = demand.room (store.tat key) := by
  -- The least wait until the limit is full is the lead of the schedule that the call leaves.
  obtain ⟨settled, answered, slack⟩ := answer_settled store key demand
  have lead := isLeast_lead (demand.leaves (store.tat key)) demand.now.nanos
    demand.arrival.tolerance
  -- What the call leaves on its key is all that a later call sees.
  simp only [← answer_tat, ← full_admitted] at lead
  have room : demand.room (store.tat key) = demand.now.nanos + demand.arrival.tolerance -
      due ((store.answer key demand).2.tat key) demand.now.nanos := by
    rw [answer_tat]
    rfl
  apply Iff.intro
  · intro told
    obtain ⟨limited, result, answered', least⟩ := told
    rw [answered] at answered'
    cases answered'
    have reported : settled.ttl.nanos = _ := least.unique lead
    omega
  · intro same
    have reported : settled.ttl.nanos =
        due ((store.answer key demand).2.tat key) demand.now.nanos - demand.now.nanos := by omega
    refine ⟨_, _, answered, ?_⟩
    rw [← reported] at lead
    exact lead

/-- The time that a call reports until its reset is exact under exactly one condition on its key. -/
theorem tellsReset_iff (store : MemoryStore) (key : String) (demand : Demand) :
    store.TellsReset key demand ↔ demand.Resets (store.tat key) := by
  rw [tellsReset_iff_slack, Demand.slack, Demand.room, Demand.leaves, Demand.Resets]
  by_cases conforms : Conforms (store.tat key) demand.arrival
  · -- An admitted call leaves its new time, which is ahead of the clock.
    simp only [if_pos conforms, due_some]
    have ahead := le_due (store.tat key) demand.now.nanos
    have nonneg := demand.arrival.nonneg
    omega
  · -- A refused one leaves the time that was stored, if there was one.
    simp only [if_neg conforms]
    cases store.tat key with
    | none => simp
    | some stored => simp

/-- A call beyond its limit finds an idle key, and its reset lies nine seconds back. -/
theorem oversized_call_looks_back :
    let quota : PositiveQuota := ⟨⟨4, Rate.perPeriod 1 (Duration.seconds 1)⟩,
      by decide, by decide, by decide⟩
    let single : Demand := ⟨quota, 1, by decide, by decide, ⟨0⟩⟩
    let oversized : Demand := ⟨quota, 6, by decide, by decide, ⟨10000000000⟩⟩
    let store := (MemoryStore.new.answer "user123" single).2
    (store.answer "user123" oversized).1.map (Except.map fun told => told.2.resetAfter) =
        some (.ok (Duration.seconds (-9))) ∧ ¬store.TellsReset "user123" oversized := by
  -- The key was free again one second after the first call.
  intro quota single oversized store
  refine ⟨by decide, ?_⟩
  rw [tellsReset_iff_slack]
  decide

/-- A request within its limit is told the time exactly. -/
theorem tellsReset_of_within (store : MemoryStore) (key : String) (request : Request)
    (within : request.quantity.toInt ≤ request.quota.limit) :
    store.TellsReset key request.toDemand :=
  (tellsReset_iff_slack store key request.toDemand).mpr (slack_eq_room within)

end MemoryStore

end RedisCell
