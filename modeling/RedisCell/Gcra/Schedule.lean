import Mathlib.Algebra.Order.Group.Defs
import Mathlib.Algebra.Order.Group.Unbundled.Basic
import Mathlib.Algebra.BigOperators.Group.List.Basic
import Mathlib.Tactic.Abel

/-! Virtual scheduling over any ordered group of times: what an arrival may do, and what a run admits. -/

namespace Gcra

/-- A request at an instant, with the time it adds to the schedule and the lead it is allowed. -/
structure Arrival (α : Type) [Zero α] [LE α] where
  now : α
  cost : α
  tolerance : α
  /-- A request never moves the schedule backwards. -/
  nonneg : 0 ≤ cost

section Order

variable {α : Type} [LinearOrder α]

/-- The instant a request is scheduled from: now, unless the schedule already lies ahead. -/
def due (tat : Option α) (now : α) : α := tat.elim now (max now)

/-- With nothing stored, an arrival is due at once. -/
@[simp] theorem due_none (now : α) : due none now = now := rfl

/-- An arrival is due at the stored time, unless that has passed. -/
@[simp] theorem due_some (tat now : α) : due (some tat) now = max now tat := rfl

/-- Scheduling never starts before now. -/
theorem le_due (tat : Option α) (now : α) : now ≤ due tat now := by
  -- What is due is now or later.
  cases tat with
  | none => exact le_rfl
  | some tat => exact le_max_left now tat

end Order

section Run

variable {α : Type} [AddCommGroup α] [LinearOrder α]

/-- A request conforms when serving it keeps the schedule within its tolerance of now. -/
def Conforms (tat : Option α) (arrival : Arrival α) : Prop :=
  due tat arrival.now + arrival.cost ≤ arrival.now + arrival.tolerance

instance (tat : Option α) (arrival : Arrival α) : Decidable (Conforms tat arrival) :=
  inferInstanceAs (Decidable (_ ≤ _))

/-- A conforming request moves the schedule, and any other leaves it alone. -/
def advance (tat : Option α) (arrival : Arrival α) : Option α :=
  if Conforms tat arrival then some (due tat arrival.now + arrival.cost) else tat

/-- The schedule after a run of requests. -/
def after (tat : Option α) (arrivals : List (Arrival α)) : Option α :=
  arrivals.foldl advance tat

/-- Whether each request of a run conforms to the schedule it meets. -/
def decisions (tat : Option α) : List (Arrival α) → List Bool
  | [] => []
  | arrival :: rest => decide (Conforms tat arrival) :: decisions (advance tat arrival) rest

/-- The requests of a run that conform, in order. -/
def admitted (tat : Option α) : List (Arrival α) → List (Arrival α)
  | [] => []
  | arrival :: rest =>
    if Conforms tat arrival then arrival :: admitted (advance tat arrival) rest
    else admitted (advance tat arrival) rest

/-- The time a list of requests adds to a schedule. -/
def total (arrivals : List (Arrival α)) : α := (arrivals.map Arrival.cost).sum

/-- A run of arrivals leaves what its first leaves to the rest. -/
@[simp] theorem after_cons (tat : Option α) (arrival : Arrival α) (rest : List (Arrival α)) :
    after tat (arrival :: rest) = after (advance tat arrival) rest := rfl

/-- No arrivals cost nothing. -/
@[simp] theorem total_nil : total ([] : List (Arrival α)) = 0 := rfl

/-- The cost of the first arrival adds to that of the rest. -/
@[simp] theorem total_cons (arrival : Arrival α) (rest : List (Arrival α)) :
    total (arrival :: rest) = arrival.cost + total rest := by
  simp [total]

/-- A conforming request leaves the schedule at its own end. -/
theorem advance_conforming {tat : Option α} {arrival : Arrival α}
    (conforms : Conforms tat arrival) :
    advance tat arrival = some (due tat arrival.now + arrival.cost) := if_pos conforms

/-- A refused request leaves the schedule where it was. -/
theorem advance_refused {tat : Option α} {arrival : Arrival α}
    (refused : ¬Conforms tat arrival) : advance tat arrival = tat := if_neg refused

/-- A schedule that a request has moved is due at its own end at that instant. -/
theorem due_moved [IsOrderedAddMonoid α] (tat : Option α) (now : α) {cost : α}
    (nonneg : 0 ≤ cost) : due (some (due tat now + cost)) now = due tat now + cost :=
  max_eq_right (le_add_of_le_of_nonneg (le_due tat now) nonneg)

/-- A run that admits nothing leaves the schedule where it was. -/
theorem after_of_admitted_nil {tat : Option α} {arrivals : List (Arrival α)}
    (none_ : admitted tat arrivals = []) : after tat arrivals = tat := by
  -- Every request of the run was refused, and a refusal changes nothing.
  induction arrivals with
  | nil => rfl
  | cons arrival rest ih =>
    by_cases conforms : Conforms tat arrival
    · simp [admitted, conforms] at none_
    · simp only [admitted, if_neg conforms, advance_refused conforms] at none_
      rw [after_cons, advance_refused conforms]
      exact ih none_

/-- A run ends within the tolerance of the last request it admits. -/
theorem after_le_last {tat : Option α} {arrivals : List (Arrival α)}
    (some_ : admitted tat arrivals ≠ []) :
    ∃ finish, after tat arrivals = some finish ∧
      finish ≤ ((admitted tat arrivals).getLast some_).now +
        ((admitted tat arrivals).getLast some_).tolerance := by
  -- Nothing admitted follows the last request, so the schedule stays at its end.
  induction arrivals generalizing tat with
  | nil => simp [admitted] at some_
  | cons arrival rest ih =>
    by_cases conforms : Conforms tat arrival
    · by_cases more : admitted (advance tat arrival) rest = []
      · simp only [admitted, if_pos conforms, more, List.getLast_singleton]
        refine ⟨due tat arrival.now + arrival.cost, ?_, conforms⟩
        rw [after_cons, after_of_admitted_nil more, advance_conforming conforms]
      · simpa only [admitted, if_pos conforms, after_cons, List.getLast_cons more] using ih more
    · simp only [admitted, if_neg conforms] at some_ ⊢
      exact ih some_

variable [IsOrderedAddMonoid α]

/-- A request never moves a schedule backwards. -/
theorem le_advance (tat : α) (arrival : Arrival α) :
    ∃ next, advance (some tat) arrival = some next ∧ tat ≤ next := by
  -- A conforming request starts no earlier than the schedule, and adds to it.
  by_cases conforms : Conforms (some tat) arrival
  · refine ⟨_, advance_conforming conforms, ?_⟩
    exact le_add_of_le_of_nonneg (le_max_right _ _) arrival.nonneg
  · exact ⟨tat, advance_refused conforms, le_rfl⟩

/-- A schedule that no longer lies ahead of now admits every request within its tolerance. -/
theorem conforms_of_past {tat : Option α} {arrival : Arrival α}
    (past : ∀ ahead, tat = some ahead → ahead ≤ arrival.now)
    (within : arrival.cost ≤ arrival.tolerance) : Conforms tat arrival := by
  -- Such a request is scheduled from now.
  have current : due tat arrival.now = arrival.now := by
    cases tat with
    | none => rfl
    | some ahead => exact max_eq_left (past ahead rfl)
  rw [Conforms, current]
  exact add_le_add_right within arrival.now

/-- A run moves a present schedule by at least the time of the requests it admits. -/
theorem total_le_after (start : α) (arrivals : List (Arrival α)) :
    ∃ finish, after (some start) arrivals = some finish ∧
      start + total (admitted (some start) arrivals) ≤ finish := by
  -- Each admitted request starts no earlier than the schedule and adds its whole cost.
  induction arrivals generalizing start with
  | nil => exact ⟨start, rfl, by simp [admitted]⟩
  | cons arrival rest ih =>
    by_cases conforms : Conforms (some start) arrival
    · obtain ⟨finish, reached, grown⟩ := ih (due (some start) arrival.now + arrival.cost)
      refine ⟨finish, by simpa only [after_cons, advance_conforming conforms] using reached, ?_⟩
      simp only [admitted, if_pos conforms, advance_conforming conforms, total_cons]
      have started : start ≤ due (some start) arrival.now := le_max_right _ _
      calc start + (arrival.cost + total _)
          = start + arrival.cost + total _ := (add_assoc _ _ _).symm
        _ ≤ due (some start) arrival.now + arrival.cost + total _ := by gcongr
        _ ≤ finish := grown
    · simpa only [after_cons, admitted, if_neg conforms, advance_refused conforms] using ih start

/-- A run ends at least the time of its admitted requests after the first of them arrived. -/
theorem first_le_after {tat : Option α} {arrivals : List (Arrival α)} {first : Arrival α}
    {others : List (Arrival α)} (admits : admitted tat arrivals = first :: others) :
    ∃ finish, after tat arrivals = some finish ∧ first.now + total (first :: others) ≤ finish := by
  -- The first admitted request is scheduled no earlier than its own arrival.
  induction arrivals generalizing tat with
  | nil => simp [admitted] at admits
  | cons arrival rest ih =>
    by_cases conforms : Conforms tat arrival
    · simp only [admitted, if_pos conforms, List.cons.injEq] at admits
      obtain ⟨rfl, admits⟩ := admits
      rw [after_cons, advance_conforming conforms] at *
      obtain ⟨finish, reached, grown⟩ := total_le_after (due tat arrival.now + arrival.cost) rest
      refine ⟨finish, reached, ?_⟩
      rw [admits] at grown
      calc arrival.now + total (arrival :: others)
          = arrival.now + arrival.cost + total others := by rw [total_cons, add_assoc]
        _ ≤ due tat arrival.now + arrival.cost + total others := by
            gcongr
            exact le_due tat arrival.now
        _ ≤ finish := grown
    · simp only [admitted, if_neg conforms, advance_refused conforms] at admits
      simpa only [after_cons, advance_refused conforms] using ih admits

/-- Admitted requests outrun the time they span by at most the tolerance of the last one. -/
theorem window_bound {tat : Option α} {arrivals : List (Arrival α)}
    (some_ : admitted tat arrivals ≠ []) :
    total (admitted tat arrivals) ≤
      ((admitted tat arrivals).getLast some_).tolerance +
        (((admitted tat arrivals).getLast some_).now - ((admitted tat arrivals).head some_).now) := by
  -- The end of the schedule separates the first admitted request from the last one.
  obtain ⟨first, others, admits⟩ := List.exists_cons_of_ne_nil some_
  obtain ⟨finish, reached, grown⟩ := first_le_after admits
  obtain ⟨finish', reached', bounded⟩ := after_le_last some_
  rw [reached, Option.some.injEq] at reached'
  subst reached'
  have head : (admitted tat arrivals).head some_ = first := by simp only [admits, List.head_cons]
  rw [head, ← admits] at *
  have spanned := grown.trans bounded
  rw [← sub_le_sub_iff_right first.now] at spanned
  calc total (admitted tat arrivals)
      = first.now + total (admitted tat arrivals) - first.now := by abel
    _ ≤ _ := spanned
    _ = _ := by abel

end Run

end Gcra
