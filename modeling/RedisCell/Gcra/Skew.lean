import RedisCell.Gcra.Wait
import Mathlib.Algebra.Order.Ring.Int
import Mathlib.Tactic.Linarith

/-! Two schedules that are offered the same requests at different instants. -/

namespace Gcra

section Skew

variable {α : Type} [CommRing α] [LinearOrder α] {lag peak : α}

/-- Two schedules of which the second is at most the peak behind, and the lag and the peak ahead. -/
def Close (lag peak : α) : Option α → Option α → Prop
  | none, none => True
  | some first, some second => first ≤ second + peak ∧ second ≤ first + lag + peak
  | _, _ => False

/-- The same request, made a second time no more than the lag later. -/
structure Skewed (lag : α) (first second : Arrival α) : Prop where
  cost : second.cost = first.cost
  tolerance : second.tolerance = first.tolerance
  notBefore : first.now ≤ second.now
  within : second.now ≤ first.now + lag

variable [IsStrictOrderedRing α] {first second : Arrival α}

/-- Before they start, both schedules take the request or neither does. -/
theorem Skewed.close_fresh (skewed : Skewed lag first second) (bounded : first.cost ≤ peak) :
    Close lag peak (advance none first) (advance none second) := by
  -- A fresh schedule compares only the cost with the tolerance, which both sides share.
  have nonneg := first.nonneg
  have notBefore := skewed.notBefore
  have within := skewed.within
  have alike : Conforms none second ↔ Conforms none first := by
    simp only [Conforms, due_none, skewed.cost, skewed.tolerance, add_le_add_iff_left]
  by_cases conforms : Conforms none first
  · rw [advance_conforming conforms, advance_conforming (alike.mpr conforms)]
    simp only [Close, due_none, skewed.cost]
    constructor <;> linarith
  · rw [advance_refused conforms, advance_refused (mt alike.mp conforms)]
    trivial

/-- Whatever each of two close schedules does with the request, they stay close. -/
theorem Skewed.close_started {tat tat' : α} (skewed : Skewed lag first second)
    (bounded : first.cost ≤ peak) (close : Close lag peak (some tat) (some tat')) :
    Close lag peak (advance (some tat) first) (advance (some tat') second) := by
  -- Each schedule admits or refuses the request, which makes four cases.
  obtain ⟨behind, ahead⟩ := close
  obtain ⟨cost, tolerance, notBefore, within⟩ := skewed
  have nonneg := first.nonneg
  have current : first.now ≤ due (some tat) first.now := le_due _ _
  have current' : second.now ≤ due (some tat') second.now := le_due _ _
  have past : tat ≤ due (some tat) first.now := le_max_right _ _
  have past' : tat' ≤ due (some tat') second.now := le_max_right _ _
  by_cases conforms : Conforms (some tat) first
  · rw [advance_conforming conforms]
    by_cases conforms' : Conforms (some tat') second
    · -- Both take it, each from its own instant or its own schedule.
      rw [advance_conforming conforms']
      have reach : due (some tat) first.now ≤ due (some tat') second.now + peak :=
        max_le (by linarith) (by linarith)
      have reach' : due (some tat') second.now ≤ due (some tat) first.now + lag + peak :=
        max_le (by linarith) (by linarith)
      simp only [Close, cost]
      constructor <;> linarith
    · -- The second one lies so far ahead already that it refuses.
      rw [advance_refused conforms']
      rw [Conforms, not_le] at conforms'
      have possible := within_of_conforms conforms
      rw [← cost, ← tolerance] at possible
      obtain ⟨_, same, _, reached⟩ := ahead_of_refused conforms' possible
      cases same
      rw [Conforms] at conforms
      simp only [Close]
      constructor <;> linarith
  · rw [advance_refused conforms]
    rw [Conforms, not_le] at conforms
    by_cases conforms' : Conforms (some tat') second
    · -- The first one lies so far ahead already that it refuses.
      rw [advance_conforming conforms']
      have possible := within_of_conforms conforms'
      rw [cost, tolerance] at possible
      obtain ⟨_, same, _, reached⟩ := ahead_of_refused conforms possible
      cases same
      rw [Conforms] at conforms'
      simp only [Close]
      constructor <;> linarith
    · rw [advance_refused conforms']
      exact ⟨behind, ahead⟩

/-- A skewed request keeps two schedules close, whether or not they have started. -/
theorem Skewed.close {tat tat' : Option α} (skewed : Skewed lag first second)
    (bounded : first.cost ≤ peak) (close : Close lag peak tat tat') :
    Close lag peak (advance tat first) (advance tat' second) := by
  -- Two schedules that are close have both started, or neither has.
  cases tat with
  | none =>
    cases tat' with
    | none => exact skewed.close_fresh bounded
    | some _ => exact close.elim
  | some _ =>
    cases tat' with
    | none => exact close.elim
    | some _ => exact skewed.close_started bounded close

/-- Two runs of the same requests stay close for as long as the skew and the costs are bounded. -/
theorem close_after {tat tat' : Option α} {requests requests' : List (Arrival α)}
    (skewed : List.Forall₂ (Skewed lag) requests requests')
    (bounded : ∀ arrival ∈ requests, arrival.cost ≤ peak) (close : Close lag peak tat tat') :
    Close lag peak (after tat requests) (after tat' requests') := by
  -- The bound is the same before and after each request, so it does not accumulate.
  induction skewed generalizing tat tat' with
  | nil => exact close
  | cons head _ ih =>
    apply ih
    · intro arrival member
      exact bounded arrival (List.mem_cons_of_mem _ member)
    · exact head.close (bounded _ List.mem_cons_self) close

end Skew

end Gcra
