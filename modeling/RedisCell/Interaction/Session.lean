import Mathlib.Data.List.Basic
import Mathlib.Tactic.Common

/-! Sessions: a system that takes one input after another, and may crash on any of them. -/

namespace Interaction

/-- A system answers an input and moves on, or crashes. -/
abbrev System (σ ι ω : Type) := σ → ι → Option (ω × σ)

namespace System

variable {σ τ ι ω κ : Type}

/-- A whole session: its inputs with their answers, and the last state, unless it crashes. -/
def session (system : System σ ι ω) : σ → List ι → Option (List (ι × ω) × σ)
  | state, [] => some ([], state)
  | state, input :: rest => do
    let (answer, state) ← system state input
    let (events, state) ← session system state rest
    return ((input, answer) :: events, state)

variable {system : System σ ι ω} {state state' : σ} {input : ι} {rest : List ι}
  {events : List (ι × ω)}

/-- A session of no inputs leaves the state. -/
@[simp] theorem session_nil : system.session state [] = some ([], state) := rfl

/-- A session goes on where its first input leaves it. -/
theorem session_cons_eq_some :
    system.session state (input :: rest) = some (events, state') ↔
      ∃ answer next later, system state input = some (answer, next) ∧
        system.session next rest = some (later, state') ∧ events = (input, answer) :: later := by
  -- Neither the first input nor any later one may crash.
  cases answered : system state input with
  | none => simp [session, answered]
  | some first =>
    obtain ⟨answer, next⟩ := first
    cases followed : system.session next rest with
    | none => simp [session, answered, followed]
    | some second =>
      obtain ⟨later, last⟩ := second
      simp only [session, answered, followed, Option.bind_eq_bind, Option.bind_some, Option.some.injEq,
        Prod.mk.injEq, Option.pure_def]
      constructor
      · intro same
        obtain ⟨rfl, rfl⟩ := same
        exact ⟨answer, next, later, ⟨rfl, rfl⟩, by rw [followed], rfl⟩
      · intro parts
        obtain ⟨_, _, _, ⟨rfl, rfl⟩, again, rfl⟩ := parts
        rw [followed, Option.some.injEq, Prod.mk.injEq] at again
        obtain ⟨rfl, rfl⟩ := again
        exact ⟨rfl, rfl⟩

/-- A session answers its inputs in their order. -/
theorem session_inputs {inputs : List ι} (ran : system.session state inputs = some (events, state')) :
    events.map Prod.fst = inputs := by
  -- Every event is that of its own input.
  induction inputs generalizing state events with
  | nil =>
    cases ran
    rfl
  | cons input rest ih =>
    obtain ⟨answer, next, later, _, followed, rfl⟩ := session_cons_eq_some.mp ran
    rw [List.map_cons, ih followed]

/--
What every input of a session keeps: from a state of the invariant an acceptable input is answered
well, and leaves a state of the invariant.
-/
structure Keeps (system : System σ ι ω) (Acceptable : ι → Prop) (Invariant : σ → Prop)
    (Answers : ι → ω → Prop) : Prop where
  step : ∀ {state input}, Invariant state → Acceptable input →
    ∃ answer next, system state input = some (answer, next) ∧ Answers input answer ∧ Invariant next

/-- A session of acceptable inputs does not crash, and answers all of them well. -/
theorem Keeps.session {Acceptable : ι → Prop} {Invariant : σ → Prop} {Answers : ι → ω → Prop}
    (keeps : system.Keeps Acceptable Invariant Answers) {inputs : List ι}
    (invariant : Invariant state) (acceptable : ∀ input ∈ inputs, Acceptable input) :
    ∃ events last, system.session state inputs = some (events, last) ∧
      (∀ event ∈ events, Answers event.1 event.2) ∧ Invariant last := by
  -- Each input is taken in the state that the earlier ones have kept.
  induction inputs generalizing state with
  | nil => exact ⟨[], state, rfl, by simp, invariant⟩
  | cons input rest ih =>
    obtain ⟨answer, next, answered, well, kept⟩ :=
      keeps.step invariant (acceptable input List.mem_cons_self)
    obtain ⟨events, last, followed, others, finally_⟩ :=
      ih kept fun other member => acceptable other (List.mem_cons_of_mem _ member)
    refine ⟨(input, answer) :: events, last, ?_, ?_, finally_⟩
    · exact session_cons_eq_some.mpr ⟨answer, next, events, answered, followed, rfl⟩
    · intro event member
      rcases List.mem_cons.mp member with rfl | later
      · exact well
      · exact others event later

/--
A system follows another one by the inputs that are passed on to it: it answers these alike and stays
in step, and the leader takes no step by any other.
-/
structure Follows (leader : System σ ι ω) (follower : System τ ι ω) (passed : ω → Bool)
    (Same : σ → τ → Prop) (Acceptable : ι → Prop) : Prop where
  takes : ∀ {state next state' input answer}, Same state state' → Acceptable input →
    leader state input = some (answer, next) → passed answer = true →
      ∃ next', follower state' input = some (answer, next') ∧ Same next next'
  skips : ∀ {state next state' input answer}, Same state state' → Acceptable input →
    leader state input = some (answer, next) → passed answer = false → Same next state'

/-- A follower answers what has been passed on, and is in step at the end of the session. -/
theorem Follows.session {follower : System τ ι ω} {passed : ω → Bool} {Same : σ → τ → Prop}
    {Acceptable : ι → Prop} (follows : system.Follows follower passed Same Acceptable)
    {inputs : List ι} {other : τ} (ran : system.session state inputs = some (events, state'))
    (acceptable : ∀ input ∈ inputs, Acceptable input) (same : Same state other) :
    ∃ last, follower.session other ((events.filter fun event => passed event.2).map Prod.fst) =
        some (events.filter fun event => passed event.2, last) ∧ Same state' last := by
  -- The induction is on the inputs, of which the follower sees those passed on.
  induction inputs generalizing state other events with
  | nil =>
    cases ran
    exact ⟨other, rfl, same⟩
  | cons input rest ih =>
    obtain ⟨answer, next, later, answered, followed, rfl⟩ := session_cons_eq_some.mp ran
    have first := acceptable input List.mem_cons_self
    have others : ∀ input ∈ rest, Acceptable input := fun input member =>
      acceptable input (List.mem_cons_of_mem _ member)
    cases sent : passed answer with
    | true =>
      -- The follower takes the same step first.
      obtain ⟨next', again, still⟩ := follows.takes same first answered sent
      obtain ⟨last, session, ends⟩ := ih followed others still
      refine ⟨last, ?_, ends⟩
      simp only [List.filter_cons, sent, if_true, List.map_cons]
      exact session_cons_eq_some.mpr ⟨answer, next', _, again, session, rfl⟩
    | false =>
      obtain ⟨last, session, ends⟩ := ih followed others (follows.skips same first answered sent)
      refine ⟨last, ?_, ends⟩
      simpa only [List.filter_cons, sent, Bool.false_eq_true, if_false] using session

/--
A system made of cells: each input is addressed to one of them, whose content decides the answer and
the content it is left with, and no other cell changes.
-/
structure Cellular (system : System σ ι ω) (cell : ι → κ) (content : κ → σ → τ) : Prop where
  alone : ∀ {state state' other input answer}, system state input = some (answer, state') →
    content (cell input) other = content (cell input) state →
    ∃ other', system other input = some (answer, other') ∧
      content (cell input) other' = content (cell input) state'
  apart : ∀ {state state' input answer addressed}, system state input = some (answer, state') →
    addressed ≠ cell input → content addressed state' = content addressed state

variable {cell : ι → κ} {content : κ → σ → τ} [DecidableEq κ]

/-- A session that does not crash serves each cell as a session of that cell's inputs alone. -/
theorem Cellular.session (cellular : system.Cellular cell content) (addressed : κ)
    {inputs : List ι} {other : σ} (ran : system.session state inputs = some (events, state'))
    (same : content addressed other = content addressed state) :
    ∃ last, system.session other (inputs.filter fun input => cell input = addressed) =
        some (events.filter fun event => cell event.1 = addressed, last) ∧
      content addressed last = content addressed state' := by
  -- The induction is on the inputs, of which the smaller session has those of the cell.
  induction inputs generalizing state other events with
  | nil =>
    cases ran
    exact ⟨other, rfl, same⟩
  | cons input rest ih =>
    obtain ⟨answer, next, later, answered, followed, rfl⟩ := session_cons_eq_some.mp ran
    by_cases here : cell input = addressed
    · -- An input of the cell finds in the smaller session what it finds in the whole one.
      subst here
      obtain ⟨other', again, left⟩ := cellular.alone answered same
      obtain ⟨last, smaller, ends⟩ := ih followed left
      refine ⟨last, ?_, ends⟩
      simp only [List.filter_cons, decide_true, if_true]
      exact session_cons_eq_some.mpr ⟨answer, other', _, again, smaller, rfl⟩
    · -- An input of another cell is left out, and leaves this cell alone.
      have unchanged := cellular.apart answered (Ne.symm here)
      obtain ⟨last, smaller, ends⟩ := ih followed (same.trans unchanged.symm)
      refine ⟨last, ?_, ends⟩
      simpa only [List.filter_cons, here, decide_false, Bool.false_eq_true, if_false] using smaller

end System

end Interaction
