import RedisCell.Gcra.Schedule
import Mathlib.Algebra.Order.Monoid.Unbundled.Pow

/-! Schedules that may be forgotten a little early, and what that may cost. -/

namespace Gcra

/-- What a request finds of its schedule, which is nothing when the schedule was forgotten. -/
structure Sighting (α : Type) [Zero α] [LE α] where
  tat : Option α
  arrival : Arrival α

section Lapse

variable {α : Type} [AddCommGroup α] [LinearOrder α]

namespace Sighting

/-- A schedule is found as it is, or not at all once it lies no further ahead than the slack. -/
def Of (slack : α) (tat : Option α) (sighting : Sighting α) : Prop :=
  sighting.tat = tat ∨
    sighting.tat = none ∧ ∀ ahead, tat = some ahead → ahead ≤ sighting.arrival.now + slack

/-- The request conforms to what it finds. -/
def Admitted (sighting : Sighting α) : Prop := Conforms sighting.tat sighting.arrival

instance (sighting : Sighting α) : Decidable sighting.Admitted :=
  inferInstanceAs (Decidable (Conforms _ _))

/-- A request that conforms moves what it found, and any other one leaves the schedule alone. -/
def leaves (tat : Option α) (sighting : Sighting α) : Option α :=
  if sighting.Admitted then advance sighting.tat sighting.arrival else tat

end Sighting

/-- The requests of a run that conform to what they find. -/
def served (sightings : List (Sighting α)) : List (Arrival α) :=
  (sightings.filter fun sighting => sighting.Admitted).map Sighting.arrival

variable {slack : α} {tat : Option α} {sighting : Sighting α} {rest sightings : List (Sighting α)}

/-- A request that conforms leaves its own end. -/
theorem Sighting.leaves_admitted (admitted : sighting.Admitted) :
    sighting.leaves tat =
      some (due sighting.tat sighting.arrival.now + sighting.arrival.cost) := by
  rw [leaves, if_pos admitted, advance_conforming admitted]

/-- A refused request leaves the schedule alone. -/
theorem Sighting.leaves_refused (refused : ¬sighting.Admitted) : sighting.leaves tat = tat :=
  if_neg refused

variable [IsOrderedAddMonoid α]

end Lapse

end Gcra
