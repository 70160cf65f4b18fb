import RedisCell.Gcra.Schedule
import Mathlib.Algebra.Order.Monoid.Unbundled.Pow

/-! Serving every request that conforms never serves fewer of them than any other choice does. -/

namespace Gcra

section Greedy

variable {α : Type} [AddCommGroup α] [LinearOrder α]

/-- Every request of a run conforms to the schedule it meets. -/
def AllConform (tat : Option α) : List (Arrival α) → Prop
  | [] => True
  | arrival :: rest => Conforms tat arrival ∧ AllConform (advance tat arrival) rest

/-- A run admits some of its requests, in their order. -/
theorem admitted_sublist (tat : Option α) (arrivals : List (Arrival α)) :
    (admitted tat arrivals).Sublist arrivals := by
  -- A refused request is left out, and any other one stays in its place.
  induction arrivals generalizing tat with
  | nil => exact List.Sublist.refl _
  | cons arrival rest ih =>
    by_cases conforms : Conforms tat arrival
    · simp only [admitted, if_pos conforms]
      exact (ih _).cons_cons arrival
    · simp only [admitted, if_neg conforms]
      exact (ih _).cons arrival

/-- A run whose requests are all among those it admits was admitted whole. -/
theorem allConform_of_admitted {tat : Option α} {arrivals : List (Arrival α)}
    (all : admitted tat arrivals = arrivals) : AllConform tat arrivals := by
  -- The induction follows the run, which a refusal would have shortened.
  induction arrivals generalizing tat with
  | nil => trivial
  | cons arrival rest ih =>
    by_cases conforms : Conforms tat arrival
    · simp only [admitted, if_pos conforms, List.cons.injEq, true_and] at all
      exact ⟨conforms, ih all⟩
    · -- A refusal would leave fewer requests than there were.
      simp only [admitted, if_neg conforms, advance_refused conforms] at all
      have fewer := (admitted_sublist tat rest).length_le
      rw [all, List.length_cons] at fewer
      omega

/-- A schedule is due no later than another one is after some further requests of a cost. -/
def Ahead (cost : α) (lead : Nat) (now : α) (tat tat' : Option α) : Prop :=
  due tat now ≤ due tat' now + lead • cost

omit [AddCommGroup α] in
/-- A schedule that is due earlier than now is due now. -/
theorem due_later (tat : Option α) {now later : α} (waits : now ≤ later) :
    due tat later = max later (due tat now) := by
  -- Waiting raises what is due to the later instant, if it was not there yet.
  cases tat with
  | none => exact (max_eq_left waits).symm
  | some tat => rw [due_some, due_some, ← max_assoc, max_eq_left waits]

variable [IsOrderedAddMonoid α] {cost now later : α} {lead : Nat} {tat tat' : Option α}
  {arrival : Arrival α}

/-- A lead outlasts the time that passes. -/
theorem Ahead.wait (nonneg : 0 ≤ cost) (ahead : Ahead cost lead now tat tat')
    (waits : now ≤ later) : Ahead cost lead later tat tat' := by
  have room : 0 ≤ lead • cost := nsmul_nonneg nonneg lead
  rw [Ahead, due_later tat waits, due_later tat' waits]
  -- Either schedule may have been caught up by the clock.
  refine max_le ?_ ?_
  · exact le_add_of_le_of_nonneg (le_max_left _ _) room
  · exact ahead.trans (add_le_add_left (le_max_right _ _) _)

/-- A request that both schedules serve leaves the lead as it was. -/
theorem Ahead.both (ahead : Ahead cost lead arrival.now tat tat')
    (conforms : Conforms tat arrival) (conforms' : Conforms tat' arrival) :
    Ahead cost lead arrival.now (advance tat arrival) (advance tat' arrival) := by
  -- Both schedules move on by the same cost.
  rw [Ahead, advance_conforming conforms, advance_conforming conforms',
    due_moved tat arrival.now arrival.nonneg, due_moved tat' arrival.now arrival.nonneg,
    add_right_comm]
  exact add_le_add_left ahead _

/-- A request that only the schedule ahead serves adds to its lead. -/
theorem Ahead.skipped (ahead : Ahead cost lead arrival.now tat tat') (same : arrival.cost = cost)
    (conforms : Conforms tat arrival) :
    Ahead cost (lead + 1) arrival.now (advance tat arrival) tat' := by
  -- The request moves one schedule on by its cost, which is one more in the lead.
  rw [Ahead, advance_conforming conforms, due_moved tat arrival.now arrival.nonneg, same, succ_nsmul,
    ← add_assoc]
  exact add_le_add_left ahead _

/-- A request that only the other schedule serves was refused because of a lead, and takes one off. -/
theorem Ahead.refused (ahead : Ahead cost lead arrival.now tat tat') (same : arrival.cost = cost)
    (refused : ¬Conforms tat arrival) (conforms' : Conforms tat' arrival) :
    ∃ left, lead = left + 1 ∧ Ahead cost left arrival.now tat (advance tat' arrival) := by
  -- Without a lead, the schedule would be due no later than the one that serves the request.
  cases lead with
  | zero =>
    rw [Ahead, zero_nsmul, add_zero] at ahead
    exact absurd ((add_le_add_left ahead _).trans conforms') refused
  | succ left =>
    refine ⟨left, rfl, ?_⟩
    rw [Ahead, advance_conforming conforms', due_moved tat' arrival.now arrival.nonneg, same,
      add_assoc, ← succ_nsmul']
    exact ahead

/-- A schedule with a lead serves as many requests of a run as another one does, up to that lead. -/
theorem length_le_of_ahead {arrivals chosen : List (Arrival α)} (chosen_ : chosen.Sublist arrivals)
    (nonneg : 0 ≤ cost) (ordered : (now :: arrivals.map Arrival.now).Pairwise (· ≤ ·))
    (uniform : ∀ arrival ∈ arrivals, arrival.cost = cost) (ahead : Ahead cost lead now tat tat')
    (all : AllConform tat' chosen) :
    chosen.length ≤ (admitted tat arrivals).length + lead := by
  -- The induction is on which requests were chosen, and each request may change the lead by one.
  induction chosen_ generalizing now lead tat tat' with
  | slnil => exact Nat.zero_le _
  | cons arrival rest ih =>
    obtain ⟨waits, ordered⟩ := List.pairwise_cons.mp ordered
    have ahead := ahead.wait nonneg (waits _ List.mem_cons_self)
    have uniform' := fun other member => uniform other (List.mem_cons_of_mem _ member)
    by_cases conforms : Conforms tat arrival
    · have more := ih ordered uniform' (ahead.skipped (uniform _ List.mem_cons_self) conforms) all
      simp only [admitted, if_pos conforms, List.length_cons]
      omega
    · simp only [admitted, if_neg conforms, advance_refused conforms]
      exact ih ordered uniform' ahead all
  | cons_cons arrival rest ih =>
    obtain ⟨waits, ordered⟩ := List.pairwise_cons.mp ordered
    obtain ⟨conforms', all⟩ := all
    have ahead := ahead.wait nonneg (waits _ List.mem_cons_self)
    have uniform' := fun other member => uniform other (List.mem_cons_of_mem _ member)
    by_cases conforms : Conforms tat arrival
    · have more := ih ordered uniform' (ahead.both conforms conforms') all
      simp only [admitted, if_pos conforms, List.length_cons]
      omega
    · obtain ⟨left, rfl, shorter⟩ :=
        ahead.refused (uniform _ List.mem_cons_self) conforms conforms'
      have more := ih ordered uniform' shorter all
      simp only [admitted, if_neg conforms, advance_refused conforms, List.length_cons]
      omega

/-- Among requests of one cost, no others that could all be served are more than those admitted. -/
theorem length_le_admitted {arrivals chosen : List (Arrival α)} (chosen_ : chosen.Sublist arrivals)
    (ordered : (arrivals.map Arrival.now).Pairwise (· ≤ ·))
    (uniform : ∀ arrival ∈ arrivals, arrival.cost = cost) (all : AllConform tat chosen) :
    chosen.length ≤ (admitted tat arrivals).length := by
  -- Both choices start from the same schedule, so neither has a lead.
  cases arrivals with
  | nil => simp [List.sublist_nil.mp chosen_]
  | cons first rest =>
    have nonneg : 0 ≤ cost := uniform first List.mem_cons_self ▸ first.nonneg
    have start : (first.now :: (first :: rest).map Arrival.now).Pairwise (· ≤ ·) := by
      refine List.pairwise_cons.mpr ⟨?_, ordered⟩
      intro now member
      rcases List.mem_cons.mp member with rfl | member
      · exact le_rfl
      · exact (List.pairwise_cons.mp ordered).1 now member
    have level : Ahead cost 0 first.now tat tat := by simp [Ahead]
    exact length_le_of_ahead chosen_ nonneg start uniform level all

end Greedy

end Gcra
