import RedisCell.Gcra.Schedule

/-! Schedules that no request can tell apart from some instant on. -/

namespace Gcra

section Alike

variable {α : Type} [LinearOrder α] {start later : α} {tat tat' tat'' : Option α}

/-- Two schedules that are due at the same instant whenever they are asked from a start on. -/
def Alike (start : α) (tat tat' : Option α) : Prop :=
  ∀ now, start ≤ now → due tat now = due tat' now

/-- An arrival time is alike to itself. -/
theorem Alike.refl (start : α) (tat : Option α) : Alike start tat tat := fun _ _ => rfl

/-- Being alike goes both ways. -/
theorem Alike.symm (alike : Alike start tat tat') : Alike start tat' tat :=
  fun now reached => (alike now reached).symm

/-- Being alike goes from one arrival time to the next. -/
theorem Alike.trans (first : Alike start tat tat') (second : Alike start tat' tat'') :
    Alike start tat tat'' :=
  fun now reached => (first now reached).trans (second now reached)

/-- Schedules that are alike stay so. -/
theorem Alike.mono (alike : Alike start tat tat') (reached : start ≤ later) :
    Alike later tat tat' :=
  fun now after => alike now (reached.trans after)

/-- A schedule that is due at the start is asked for now from there on. -/
theorem due_of_past (past : due tat start = start) {now : α} (reached : start ≤ now) :
    due tat now = now := by
  -- The schedule lies before its start, and so before any later instant.
  cases tat with
  | none => rfl
  | some tat =>
    have before : tat ≤ start := max_eq_left_iff.mp past
    exact max_eq_left (before.trans reached)

/-- A schedule that does not lie ahead of its start is as good as none. -/
theorem alike_none_of_past (past : due tat start = start) : Alike start none tat :=
  fun _ reached => (due_of_past past reached).symm

/-- Only what is due at its start matters to a schedule. -/
theorem alike_iff : Alike start tat tat' ↔ due tat start = due tat' start := by
  -- Being alike is decided at the start itself.
  apply Iff.intro
  · intro alike
    exact alike start le_rfl
  · intro same
    -- Both lie ahead of the start at one instant, or neither lies ahead.
    rcases eq_or_ne (due tat start) start with past | ahead
    · exact (alike_none_of_past past).symm.trans (alike_none_of_past (same ▸ past))
    · have started : ∀ tat : Option α, due tat start ≠ start → tat = some (due tat start) := by
        intro tat ahead
        cases tat with
        | none => exact absurd rfl ahead
        | some tat => exact congrArg some (max_eq_right (le_of_not_ge (mt max_eq_left ahead))).symm
      rw [started tat ahead, started tat' (same ▸ ahead), same]
      exact Alike.refl _ _

end Alike

end Gcra
