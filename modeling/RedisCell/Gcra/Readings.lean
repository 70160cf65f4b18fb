import Mathlib.Algebra.Order.Ring.Int
import Mathlib.Tactic.Common

/-! Clock readings of a run: how far they spread, and which part of a run they cut out. -/

namespace Gcra

/-- The time from the earliest to the latest of some clock readings, and none for no readings. -/
def spread (readings : List Int) : Int := readings.max?.getD 0 - readings.min?.getD 0

/-- No two readings lie further apart than the earliest and the latest. -/
theorem sub_le_spread {readings : List Int} {later earlier : Int} (laterMem : later ∈ readings)
    (earlierMem : earlier ∈ readings) : later - earlier ≤ spread readings := by
  -- A list with members has a greatest and a least one.
  obtain ⟨latest, latestIs⟩ := Option.isSome_iff_exists.mp (List.isSome_max?_of_mem laterMem)
  obtain ⟨earliest, earliestIs⟩ :=
    Option.isSome_iff_exists.mp (List.isSome_min?_of_mem earlierMem)
  have above := (List.max?_eq_some_iff.mp latestIs).2 later laterMem
  have below := (List.min?_eq_some_iff.mp earliestIs).2 earlier earlierMem
  simp only [spread, latestIs, earliestIs, Option.getD_some]
  omega

/-- Readings that lie pairwise within a bound are spread by no more than it. -/
theorem spread_le {readings : List Int} {bound : Int} (nonneg : 0 ≤ bound)
    (close : ∀ later ∈ readings, ∀ earlier ∈ readings, later - earlier ≤ bound) :
    spread readings ≤ bound := by
  -- The extreme readings are readings themselves, so both bounds apply to them.
  unfold spread
  cases latest : readings.max? with
  | none =>
    rw [List.max?_eq_none_iff] at latest
    subst latest
    simpa using nonneg
  | some last =>
    cases earliest : readings.min? with
    | none =>
      rw [List.min?_eq_none_iff] at earliest
      simp [earliest] at latest
    | some first =>
      exact close last (List.max?_mem latest) first (List.min?_mem earliest)

/-- The elements between two values of a list that ascends from the first value start it. -/
theorem between_starts {α : Type} {key : α → Int} {list : List α} {start finish : Int}
    (sorted : list.Pairwise fun left right => key left ≤ key right)
    (above : ∀ item ∈ list, start ≤ key item) :
    (list.filter fun item => start ≤ key item ∧ key item ≤ finish) <+: list := by
  -- The induction is on the list, until an element lies beyond the finish.
  induction list with
  | nil => exact List.prefix_refl _
  | cons head rest ih =>
    rw [List.pairwise_cons] at sorted
    have first := above head (by simp)
    by_cases inside : key head ≤ finish
    · rw [List.filter_cons_of_pos (by simp [first, inside])]
      rw [List.prefix_cons_inj]
      exact ih sorted.2 fun item member => above item (by simp [member])
    · -- Everything after an element past the end lies past the end too.
      rw [List.filter_cons_of_neg (by simp [inside])]
      have later : (rest.filter fun item => start ≤ key item ∧ key item ≤ finish) = [] := by
        rw [List.filter_eq_nil_iff]
        intro item member
        have order := sorted.1 item member
        simp only [decide_eq_true_eq]
        omega
      rw [later]
      exact List.nil_prefix

/-- The elements between two values are a contiguous part of an ascending list. -/
theorem between_contiguous {α : Type} {key : α → Int} {list : List α}
    (sorted : list.Pairwise fun left right => key left ≤ key right) (start finish : Int) :
    (list.filter fun item => start ≤ key item ∧ key item ≤ finish) <:+: list := by
  -- The induction is on the list, until an element reaches the start.
  induction list with
  | nil => exact List.infix_refl _
  | cons head rest ih =>
    by_cases reached : start ≤ key head
    · -- From the first element that is not too small, none is.
      have above : ∀ item ∈ head :: rest, start ≤ key item := by
        intro item member
        rcases List.mem_cons.mp member with rfl | member
        · exact reached
        · exact reached.trans ((List.pairwise_cons.mp sorted).1 item member)
      exact (between_starts sorted above).isInfix
    · rw [List.filter_cons_of_neg (by simp [reached])]
      exact (ih (List.pairwise_cons.mp sorted).2).trans (List.suffix_cons head rest).isInfix

end Gcra
