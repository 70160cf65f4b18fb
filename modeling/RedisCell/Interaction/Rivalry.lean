import RedisCell.Interaction.Pool

/-! Calls that stand in each other's way: what each one knows of how many rivals have succeeded. -/

namespace Interaction

namespace Pool

variable {ι Op : Type} {Ans : Op → Type} {α κ σ : Type}

/-- A call that has returned a value is left with that value. -/
theorem programs_of_returned {pool : Pool ι Op Ans α κ σ} {caller : ι} {value : α}
    (returned_ : pool.returned caller = some value) : pool.programs caller = .ret value := by
  -- Only a program that has returned has a result.
  unfold returned at returned_
  cases left : pool.programs caller with
  | ret other =>
    rw [left] at returned_
    cases returned_
    rfl
  | abort =>
    rw [left] at returned_
    cases returned_
  | ask op next =>
    rw [left] at returned_
    cases returned_

variable [DecidableEq ι]

/-- How many rivals of a call have had their effect. -/
def wins (rivals : ι → ι → Bool) (effective : α → Bool) (pool : Pool ι Op Ans α κ σ)
    (caller : ι) : Nat := ((pool.order effective).filter (rivals caller)).length

/-- A call that takes no turn is left with its program. -/
theorem execute_programs_of_ne {handle : κ → Handler Op Ans σ} {pool : Pool ι Op Ans α κ σ}
    {schedule : List (ι × κ)} {caller : ι} (waiting : ∀ turn ∈ schedule, turn.1 ≠ caller) :
    (pool.execute handle schedule).programs caller = pool.programs caller := by
  -- Each turn changes the program of its own caller at most.
  induction schedule generalizing pool with
  | nil => rfl
  | cons turn rest ih =>
    obtain ⟨other, waiting⟩ := List.forall_mem_cons.mp waiting
    refine (ih waiting).trans ?_
    unfold step
    split
    · exact advance_programs_of_ne (Ne.symm other)
    · rfl

/-- A schedule adds calls to the order that had not returned before it. -/
theorem execute_order (handle : κ → Handler Op Ans σ) (effective : α → Bool)
    (pool : Pool ι Op Ans α κ σ) (schedule : List (ι × κ)) :
    ∃ new, (pool.execute handle schedule).order effective = pool.order effective ++ new ∧
      ∀ caller ∈ new, pool.returned caller = none := by
  -- The induction is on the schedule.
  induction schedule generalizing pool with
  | nil => exact ⟨[], (List.append_nil _).symm, nofun⟩
  | cons turn rest ih =>
    obtain ⟨new, later, unsettled⟩ := ih (pool.step handle turn)
    show ∃ new, ((pool.step handle turn).execute handle rest).order effective = _ ∧ _
    rw [later]
    revert unsettled
    unfold step
    split
    · rename_i op next asks
      intro unsettled
      have running : pool.returned turn.1 = none := by simp [returned, Program.result, asks]
      rw [advance_order running, List.append_assoc]
      refine ⟨_, rfl, fun caller member => ?_⟩
      by_cases same : caller = turn.1
      · exact same ▸ running
      · -- A call that had returned would have kept its value.
        rcases List.mem_append.mp member with now | later
        · split at now
          · exact absurd (List.mem_singleton.mp now) same
          · cases now
        · rw [← unsettled caller later]
          exact (advance_returned_of_ne same).symm
    · exact fun unsettled => ⟨new, rfl, unsettled⟩

/--
What calls know while they interleave: each one about what is left of it, the state, and the number
of its rivals that have had their effect, which is all that the others may do to it.
-/
structure Rivalry (handle : κ → Handler Op Ans σ) (programs : ι → Program Op Ans α)
    (rivals : ι → ι → Bool) (effective : α → Bool) where
  Knows : ι → Program Op Ans α → σ → Nat → Prop
  apart : ∀ caller, rivals caller caller = false
  initial : ∀ caller state, Knows caller (programs caller) state 0
  own : ∀ {caller op next state wins} (now : κ), Knows caller (.ask op next) state wins →
    Knows caller ((handle now op state).1.elim .abort next) (handle now op state).2 wins
  /-- The operation of another call may count as one more win against this one. -/
  other : ∀ {caller program state wins rival op next wins'} (now : κ), caller ≠ rival →
    Knows caller program state wins → Knows rival (.ask op next) state wins' →
    Knows caller program (handle now op state).2
      (wins + if rivals caller rival ∧
        ((handle now op state).1.elim Program.abort next).result.any effective then 1 else 0)

namespace Rivalry

variable {handle : κ → Handler Op Ans σ} {programs : ι → Program Op Ans α}
  {rivals : ι → ι → Bool} {effective : α → Bool}
  (rivalry : Rivalry handle programs rivals effective) {pool : Pool ι Op Ans α κ σ}

/-- Every call of a pool knows what it should, where the first wins against it may be left out. -/
def Upheld (base : ι → Nat) (pool : Pool ι Op Ans α κ σ) : Prop :=
  ∀ caller, base caller ≤ pool.wins rivals effective caller ∧
    rivalry.Knows caller (pool.programs caller) pool.state
      (pool.wins rivals effective caller - base caller)

/-- An operation of a call that was running counts for its rivals when it has the call's effect. -/
theorem wins_advance {event : Event ι Op κ σ} {program : Program Op Ans α}
    (running : pool.returned event.caller = none) (caller : ι) :
    (pool.advance event program).wins rivals effective caller =
      pool.wins rivals effective caller +
        if rivals caller event.caller ∧ program.result.any effective then 1 else 0 := by
  rw [wins, wins, advance_order running, List.filter_append, List.length_append]
  congr 1
  -- The call is one more in the order exactly when it has its effect now.
  by_cases effects : program.result.any effective = true
  · by_cases rival : rivals caller event.caller = true <;> simp [effects, rival]
  · simp [effects]

variable {rivalry} {base : ι → Nat}

/-- What calls know is upheld by every operation of one of them. -/
theorem Upheld.step (upheld : rivalry.Upheld base pool) (turn : ι × κ) :
    rivalry.Upheld base (pool.step handle turn) := by
  -- Only a call that is still asking takes its turn.
  obtain ⟨caller, now⟩ := turn
  unfold Pool.step
  cases asks : pool.programs caller with
  | ret value => exact upheld
  | abort => exact upheld
  | ask op next =>
    have running : pool.returned caller = none := by simp [returned, Program.result, asks]
    have known := (upheld caller).2
    rw [asks] at known
    intro other
    obtain ⟨least, knows⟩ := upheld other
    show base other ≤ (pool.advance _ _).wins rivals effective other ∧ _
    rw [wins_advance running]
    refine ⟨Nat.le_add_right_of_le least, ?_⟩
    by_cases same : other = caller
    · -- The call itself goes on with its answer, and is no rival of its own.
      subst same
      show rivalry.Knows other ((pool.advance _ _).programs other) (handle now op pool.state).2 _
      rw [rivalry.apart, advance_programs_self]
      simpa using rivalry.own now known
    · show rivalry.Knows other ((pool.advance _ _).programs other) _ _
      rw [advance_programs_of_ne same, Nat.sub_add_comm least]
      exact rivalry.other now same knows known

/-- What calls know is upheld by every schedule. -/
theorem Upheld.execute (upheld : rivalry.Upheld base pool) (schedule : List (ι × κ)) :
    rivalry.Upheld base (pool.execute handle schedule) := by
  -- One operation after another upholds it.
  induction schedule generalizing pool with
  | nil => exact upheld
  | cons turn rest ih => exact ih (upheld.step turn)

/-- Whatever the schedule, every call knows what it should. -/
theorem knows (rivalry : Rivalry handle programs rivals effective) (initial : σ)
    (schedule : List (ι × κ)) :
    rivalry.Upheld (fun _ => 0) ((Pool.start programs initial).execute handle schedule) :=
  Upheld.execute (fun caller => ⟨Nat.zero_le _, rivalry.initial caller initial⟩) schedule

/-- A call that has not begun yet knows what it should of the wins from then on. -/
theorem knows_since (rivalry : Rivalry handle programs rivals effective) (initial : σ)
    (early late : List (ι × κ)) {caller : ι} (waiting : ∀ turn ∈ early, turn.1 ≠ caller) :
    let before := (Pool.start programs initial).execute handle early
    let after := before.execute handle late
    rivalry.Knows caller (after.programs caller) after.state
      (after.wins rivals effective caller - before.wins rivals effective caller) := by
  intro before after
  let base := Function.update (fun _ => 0) caller (before.wins rivals effective caller)
  -- Only this call starts to count anew.
  have upheld : rivalry.Upheld base before := by
    intro other
    by_cases same : other = caller
    · subst same
      have untouched : before.programs other = programs other := execute_programs_of_ne waiting
      simp only [base, Function.update_self, untouched, Nat.sub_self]
      exact ⟨Nat.le_refl _, rivalry.initial other before.state⟩
    · simp only [base, Function.update_of_ne same]
      exact rivalry.knows initial early other
  have known := (upheld.execute late caller).2
  simp only [base, Function.update_self] at known
  exact known

end Rivalry

end Pool

end Interaction
