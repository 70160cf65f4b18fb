import RedisCell.Gcra.Greedy
import Mathlib.Algebra.Order.Ring.Int
import Mathlib.Tactic.Linarith
import Mathlib.Tactic.Ring

/-! The most requests of one cost that a stretch of time can serve, and requests that get them all. -/

namespace Gcra

/-- A run is admitted whole when its first part is, and the rest after it. -/
theorem AllConform.append {tat : Option Int} {first second : List (Arrival Int)}
    (all : AllConform tat first) (rest : AllConform (after tat first) second) :
    AllConform tat (first ++ second) := by
  -- The induction is on the first part.
  induction first generalizing tat with
  | nil => exact rest
  | cons arrival others ih => exact ⟨all.1, ih all.2 rest⟩

/-- Requests of one cost add that cost as often as there are requests. -/
theorem total_uniform {cost : Int} {arrivals : List (Arrival Int)}
    (uniform : ∀ arrival ∈ arrivals, arrival.cost = cost) :
    total arrivals = arrivals.length * cost := by
  -- Each arrival adds the one cost.
  induction arrivals with
  | nil => simp
  | cons arrival rest ih =>
    rw [total_cons, uniform arrival List.mem_cons_self,
      ih fun other member => uniform other (List.mem_cons_of_mem _ member), List.length_cons]
    push_cast
    ring

/-- Requests that each cost one interval, of which a burst may come at once. -/
structure Even where
  interval : Int
  burst : Nat
  positive : 0 < interval
  some_ : 1 ≤ burst

namespace Even

/-- A request of this cost and tolerance. -/
def Admits (even : Even) (arrival : Arrival Int) : Prop :=
  arrival.cost = even.interval ∧ arrival.tolerance = even.burst * even.interval

/-- The readings of a burst at a start, and of one request in each interval after it. -/
def saturating (even : Even) (start : Int) (steps : Nat) : List Int :=
  List.replicate even.burst start ++
    (List.range' 1 steps).map fun step : Nat => start + step * even.interval

variable {even : Even} {tat : Option Int} {start : Int} {arrivals : List (Arrival Int)}

/-- A request conforms while the schedule is due within the burst after it, and is due one later. -/
theorem step {arrival : Arrival Int} {ahead : Int} (admits : even.Admits arrival)
    (scheduled : due tat start = start + ahead) (later : start ≤ arrival.now)
    (behind : arrival.now ≤ start + ahead)
    (within : start + ahead + even.interval ≤ arrival.now + even.burst * even.interval) :
    Conforms tat arrival ∧
      due (advance tat arrival) start = start + (ahead + even.interval) := by
  obtain ⟨cost, tolerance⟩ := admits
  have positive := even.positive
  -- The schedule is ahead of the arrival, so it decides when the call is due.
  have current : due tat arrival.now = start + ahead := by
    rw [due_later tat later, scheduled, max_eq_right behind]
  have conforms : Conforms tat arrival := by
    rw [Conforms, current, cost, tolerance]
    exact within
  -- Admitting it moves the schedule on by one interval.
  refine ⟨conforms, ?_⟩
  rw [advance_conforming conforms, current, cost, due_some]
  omega

/-- A whole burst is admitted at one instant by a schedule with room for it. -/
theorem burst_admitted (admits : ∀ arrival ∈ arrivals, even.Admits arrival)
    (at_ : ∀ arrival ∈ arrivals, arrival.now = start) (served : Nat)
    (room : served + arrivals.length ≤ even.burst)
    (scheduled : due tat start = start + served * even.interval) :
    AllConform tat arrivals ∧
      due (after tat arrivals) start =
        start + (served + arrivals.length : Nat) * even.interval := by
  -- Each request takes one more interval of the room.
  induction arrivals generalizing tat served with
  | nil => exact ⟨trivial, scheduled⟩
  | cons arrival rest ih =>
    rw [List.length_cons] at room
    have positive := even.positive
    have now := at_ arrival List.mem_cons_self
    have taken : 0 ≤ (served : Int) * even.interval :=
      mul_nonneg (Int.natCast_nonneg served) positive.le
    have fits : ((served : Int) + 1) * even.interval ≤ even.burst * even.interval :=
      mul_le_mul_of_nonneg_right (by omega) positive.le
    rw [add_mul, one_mul] at fits
    obtain ⟨conforms, scheduled⟩ := step (admits arrival List.mem_cons_self) scheduled
      (by omega) (by omega) (by omega)
    rw [← add_one_mul, ← Nat.cast_succ] at scheduled
    obtain ⟨all, ends⟩ := ih (fun other member => admits other (List.mem_cons_of_mem _ member))
      (fun other member => at_ other (List.mem_cons_of_mem _ member)) (served + 1) (by omega)
      scheduled
    refine ⟨⟨conforms, all⟩, ?_⟩
    rw [after_cons, ends, List.length_cons, Nat.succ_add_eq_add_succ]

/-- After a burst, one request in each interval is admitted. -/
theorem steps_admitted (admits : ∀ arrival ∈ arrivals, even.Admits arrival) (before : Nat)
    {steps : Nat}
    (paced : arrivals.map Arrival.now =
      (List.range' (before + 1) steps).map fun step : Nat => start + step * even.interval)
    (scheduled : due tat start = start + (even.burst + before : Nat) * even.interval) :
    AllConform tat arrivals := by
  -- Each interval pays for the request at its end, so the schedule stays one burst ahead.
  induction arrivals generalizing tat before steps with
  | nil => trivial
  | cons arrival rest ih =>
    cases steps with
    | zero => cases paced
    | succ steps =>
      rw [List.range'_succ, List.map_cons, List.map_cons, List.cons.injEq] at paced
      obtain ⟨now, paced⟩ := paced
      have positive := even.positive
      have some_ : even.interval ≤ even.burst * even.interval :=
        le_mul_of_one_le_left positive.le (by exact_mod_cast even.some_)
      have waited : 0 ≤ ((before + 1 : Nat) : Int) * even.interval :=
        mul_nonneg (Int.natCast_nonneg _) positive.le
      push_cast at now waited scheduled
      rw [add_mul, one_mul] at now waited
      rw [add_mul] at scheduled
      obtain ⟨conforms, scheduled⟩ := step (admits arrival List.mem_cons_self) scheduled
        (by omega) (by omega) (by omega)
      refine ⟨conforms, ih (fun other member => admits other (List.mem_cons_of_mem _ member))
        (before + 1) paced ?_⟩
      rw [scheduled]
      push_cast
      ring

/-- The saturating requests are all admitted by a schedule that is not ahead of their start. -/
theorem saturating_admitted (admits : ∀ arrival ∈ arrivals, even.Admits arrival) {steps : Nat}
    (saturates : arrivals.map Arrival.now = even.saturating start steps)
    (idle : due tat start = start) : AllConform tat arrivals := by
  -- The requests are a burst at the start, and one after each interval.
  obtain ⟨burst, paced, rfl, atStart, atSteps⟩ := List.map_eq_append_iff.mp saturates
  have length := congrArg List.length atStart
  rw [List.length_map, List.length_replicate] at length
  have at_ : ∀ arrival ∈ burst, arrival.now = start := fun arrival member =>
    List.eq_of_mem_replicate (atStart ▸ List.mem_map_of_mem member)
  obtain ⟨all, ends⟩ := burst_admitted
    (fun arrival member => admits arrival (List.mem_append_left _ member)) at_ 0 (by omega)
    (by simpa using idle)
  -- The burst has brought the schedule as far ahead as it may be.
  refine all.append (steps_admitted
    (fun arrival member => admits arrival (List.mem_append_right _ member)) 0 atSteps ?_)
  rw [ends, length, Nat.zero_add]
  rfl

/-- A stretch of time serves no more than one burst, and one request in each of its intervals. -/
theorem length_admitted_le (admits : ∀ arrival ∈ arrivals, even.Admits arrival) {steps : Nat}
    (within : ∀ arrival ∈ arrivals,
      start ≤ arrival.now ∧ arrival.now < start + (steps + 1 : Nat) * even.interval) :
    (admitted tat arrivals).length ≤ even.burst + steps := by
  -- The requests that are admitted obey the bound of a window.
  have positive := even.positive
  by_cases nothing : admitted tat arrivals = []
  · simp [nothing]
  -- The first and the last request that are admitted lie within the stretch.
  have subset := (admitted_sublist tat arrivals).subset
  have first := subset (List.head_mem nothing)
  have last := subset (List.getLast_mem nothing)
  have bound := window_bound nothing
  rw [total_uniform fun arrival member => (admits arrival (subset member)).1,
    (admits _ last).2] at bound
  have starts := (within _ first).1
  have ends := (within _ last).2
  have served : ((admitted tat arrivals).length : Int) * even.interval <
      (even.burst + steps + 1 : Nat) * even.interval := by
    push_cast at ends ⊢
    rw [add_mul, add_mul]
    rw [add_mul] at ends
    omega
  have fewer := lt_of_mul_lt_mul_right served positive.le
  omega

/--
Whoever asks for it is served as much as a stretch of time can serve: a run that asks for a burst at
the start and for one request in each interval, and perhaps for more, is admitted that many.
-/
theorem length_admitted (admits : ∀ arrival ∈ arrivals, even.Admits arrival) {steps : Nat}
    (ordered : (arrivals.map Arrival.now).Pairwise (· ≤ ·))
    (within : ∀ arrival ∈ arrivals,
      start ≤ arrival.now ∧ arrival.now < start + (steps + 1 : Nat) * even.interval)
    (idle : due tat start = start)
    (asks : (even.saturating start steps).Sublist (arrivals.map Arrival.now)) :
    (admitted tat arrivals).length = even.burst + steps := by
  -- At most as many are admitted, and at least as many as are asked for in time.
  refine le_antisymm (length_admitted_le admits within) ?_
  obtain ⟨chosen, among, readings⟩ := List.sublist_map_iff.mp asks
  have all := saturating_admitted (fun arrival member => admits arrival (among.subset member))
    readings.symm idle
  have most := length_le_admitted among ordered (fun arrival member => (admits arrival member).1) all
  -- The chosen requests are as many as the readings.
  have many := congrArg List.length readings
  rw [List.length_map] at many
  rw [← many, saturating, List.length_append, List.length_replicate, List.length_map,
    List.length_range'] at most
  exact most

end Even

end Gcra
