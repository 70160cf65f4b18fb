import RedisCell.Gcra.Schedule
import Mathlib.Order.Bounds.Defs

/-! How long a refused request waits for the schedule to let it pass, if it ever does. -/

namespace Gcra

section Wait

variable {α : Type} [AddCommGroup α] [LinearOrder α] [IsOrderedAddMonoid α] {tat : Option α}
  {now later cost tolerance : α}

/-- A request beyond its tolerance is refused by every schedule at every instant. -/
theorem refused_of_beyond (tat : Option α) (now : α) (beyond : tolerance < cost) :
    now + tolerance < due tat now + cost :=
  -- Scheduling never starts before now, and the cost alone exceeds the lead that is allowed.
  add_lt_add_of_le_of_lt (le_due tat now) beyond

/-- A request within its tolerance is refused only by a schedule that lies ahead of now. -/
theorem ahead_of_refused (refused : now + tolerance < due tat now + cost)
    (within : cost ≤ tolerance) : ∃ ahead, tat = some ahead ∧ now < ahead ∧ due tat now = ahead := by
  -- Were now the later one, the request would end within the tolerance.
  have late : now < due tat now := by
    by_contra early
    exact absurd refused (not_lt.mpr (add_le_add (not_lt.mp early) within))
  cases tat with
  | none => exact absurd late (lt_irrefl now)
  | some ahead =>
    have past : now < ahead := by simpa using late
    exact ⟨ahead, rfl, past, max_eq_right past.le⟩

/-- A request that some schedule takes is within its tolerance. -/
theorem within_of_conforms {arrival : Arrival α} (conforms : Conforms tat arrival) :
    arrival.cost ≤ arrival.tolerance := by
  -- It ends within the tolerance although it starts no earlier than now.
  have ended : arrival.now + arrival.cost ≤ arrival.now + arrival.tolerance :=
    (add_le_add_left (le_due tat arrival.now) arrival.cost).trans conforms
  exact le_of_add_le_add_left ended

/-- A refused request within its tolerance passes from exactly one instant on. -/
theorem passes_iff_of_refused (refused : now + tolerance < due tat now + cost)
    (within : cost ≤ tolerance) (later : α) :
    due tat later + cost ≤ later + tolerance ↔ due tat now + cost - tolerance ≤ later := by
  obtain ⟨ahead, rfl, _, reached⟩ := ahead_of_refused refused within
  rw [reached, due_some, max_add, max_le_iff, sub_le_iff_le_add]
  -- Counted from its own instant the request always passes.
  exact and_iff_right (add_le_add_right within later)

/-- A request for the whole tolerance passes exactly when nothing of the schedule lies ahead. -/
theorem full_passes_iff (tat : Option α) (reached : now ≤ later) (tolerance : α) :
    due tat later + tolerance ≤ later + tolerance ↔ due tat now ≤ later := by
  -- The tolerance cancels, and the time that remains is the one stored.
  rw [add_le_add_iff_right]
  cases tat with
  | none => simp [reached]
  | some ahead => simp [reached]

/-- The lead of a schedule is the least time after which the whole tolerance is free again. -/
theorem isLeast_lead (tat : Option α) (now tolerance : α) :
    IsLeast {wait | 0 ≤ wait ∧ due tat (now + wait) + tolerance ≤ now + wait + tolerance}
      (due tat now - now) := by
  -- The whole tolerance is free once nothing is due any more.
  have lead : 0 ≤ due tat now - now := sub_nonneg.mpr (le_due tat now)
  constructor
  · refine ⟨lead, (full_passes_iff tat (le_add_of_nonneg_right lead) tolerance).mpr ?_⟩
    rw [add_sub_cancel]
  · intro wait passes
    obtain ⟨nonneg, passes⟩ := passes
    -- A wait that lets it pass reaches what is due.
    have reached := (full_passes_iff tat (le_add_of_nonneg_right nonneg) tolerance).mp passes
    exact sub_le_iff_le_add'.mpr reached

end Wait

end Gcra
