import RedisCell.Interaction.Program
import Mathlib.Data.List.Dedup
import Mathlib.Logic.Function.Basic

/-! Calls that interleave their operations, and when they are as good as one call at a time. -/

namespace Interaction

/-- One operation of a call, with what its environment chose and what became of the state. -/
structure Event (ι Op κ σ : Type) where
  caller : ι
  op : Op
  choice : κ
  before : σ
  after : σ

/-- Calls at any points of their programs, over the state they share. -/
structure Pool (ι Op : Type) (Ans : Op → Type) (α κ σ : Type) where
  programs : ι → Program Op Ans α
  state : σ
  /-- The operations so far, in order. -/
  history : List (Event ι Op κ σ)

/-- The value of a program that has reached it. -/
def Program.result {Op : Type} {Ans : Op → Type} {α : Type} : Program Op Ans α → Option α
  | .ret value => some value
  | _ => none

namespace Pool

variable {ι Op : Type} {Ans : Op → Type} {α κ σ : Type} [DecidableEq ι]

/-- Calls that have not begun. -/
def start (programs : ι → Program Op Ans α) (state : σ) : Pool ι Op Ans α κ σ :=
  ⟨programs, state, []⟩

/-- Record an operation, after which its caller is left with another program. -/
def advance (pool : Pool ι Op Ans α κ σ) (event : Event ι Op κ σ) (program : Program Op Ans α) :
    Pool ι Op Ans α κ σ where
  programs := Function.update pool.programs event.caller program
  state := event.after
  history := pool.history ++ [event]

/-- Let one caller ask its next operation, where its environment makes the given choice. -/
def step (handle : κ → Handler Op Ans σ) (pool : Pool ι Op Ans α κ σ) (turn : ι × κ) :
    Pool ι Op Ans α κ σ :=
  match pool.programs turn.1 with
  | .ask op next =>
    let (answer, after) := handle turn.2 op pool.state
    pool.advance ⟨turn.1, op, turn.2, pool.state, after⟩ (answer.elim .abort next)
  -- A call that has returned or aborted lets its turn pass.
  | _ => pool

/-- Let callers take turns in the order of a schedule. -/
def execute (handle : κ → Handler Op Ans σ) (pool : Pool ι Op Ans α κ σ)
    (schedule : List (ι × κ)) : Pool ι Op Ans α κ σ := schedule.foldl (step handle) pool

/-- What a call has returned, if it has. -/
def returned (pool : Pool ι Op Ans α κ σ) (caller : ι) : Option α := (pool.programs caller).result

/-- The calls with effective results, in the order of their last operations. -/
def order (effective : α → Bool) (pool : Pool ι Op Ans α κ σ) : List ι :=
  -- Removing duplicates keeps the last occurrence of each call.
  (pool.history.map Event.caller).dedup.filter fun caller => (pool.returned caller).any effective

/-- The choice a call met at its last operation of a kind. -/
def lastChoice (reads : Op → Bool) (pool : Pool ι Op Ans α κ σ) (caller : ι) : Option κ :=
  (pool.history.filter fun event => event.caller = caller ∧ reads event.op).getLast?.map
    Event.choice

/-- Run calls one at a time, each with one choice for all of its operations. -/
def serial (handle : κ → Handler Op Ans σ) (programs : ι → Program Op Ans α) :
    σ → List (ι × κ) → List (Option α) × σ
  | state, [] => ([], state)
  -- Nothing comes between the operations of one call.
  | state, turn :: rest =>
    let ran := (programs turn.1).run (handle turn.2) state
    let others := serial handle programs ran.2 rest
    (ran.1 :: others.1, others.2)

omit [DecidableEq ι] in
/-- One more call runs from the state the others leave. -/
theorem serial_concat (handle : κ → Handler Op Ans σ) (programs : ι → Program Op Ans α)
    (state : σ) (turns : List (ι × κ)) (turn : ι × κ) :
    serial handle programs state (turns ++ [turn]) =
      let others := serial handle programs state turns
      let ran := (programs turn.1).run (handle turn.2) others.2
      (others.1 ++ [ran.1], ran.2) := by
  -- The other calls run first, whatever they start from.
  induction turns generalizing state with
  | nil => rfl
  | cons first rest ih => simp only [List.cons_append, serial, ih]

/-- Keeping last occurrences moves a repeated element to the end. -/
theorem filter_dedup_concat (kept : ι → Bool) (callers : List ι) (caller : ι) :
    (callers ++ [caller]).dedup.filter kept =
      callers.dedup.filter (fun other => kept other && other ≠ caller) ++ [caller].filter kept := by
  -- The induction is on the list, which the last element may repeat or not.
  induction callers with
  | nil => rfl
  | cons first rest ih =>
    rw [List.cons_append]
    by_cases repeated : first ∈ rest
    · rw [List.dedup_cons_of_mem repeated, List.dedup_cons_of_mem (by simp [repeated]), ih]
    rw [List.dedup_cons_of_notMem repeated]
    by_cases same : first = caller
    · -- The first occurrence is no longer the last one.
      subst same
      rw [List.dedup_cons_of_mem (by simp), ih]
      simp
    · rw [List.dedup_cons_of_notMem (by simp [repeated, same]), List.filter_cons,
        List.filter_cons, ih]
      cases kept first <;> simp [same]

section Advance

variable {pool : Pool ι Op Ans α κ σ} {event : Event ι Op κ σ} {program : Program Op Ans α}
  {effective : α → Bool} {reads : Op → Bool} {other : ι}

/-- The step of one caller leaves the programs of the others. -/
theorem advance_programs_of_ne (different : other ≠ event.caller) :
    (pool.advance event program).programs other = pool.programs other :=
  Function.update_of_ne different _ _

/-- The caller of a step goes on with the program that is left. -/
@[simp] theorem advance_programs_self :
    (pool.advance event program).programs event.caller = program := Function.update_self _ _ _

/-- The caller of a step has returned when its program has. -/
@[simp] theorem advance_returned_self :
    (pool.advance event program).returned event.caller = program.result := by
  rw [returned, advance_programs_self]

/-- The step of one caller leaves what the others have returned. -/
theorem advance_returned_of_ne (different : other ≠ event.caller) :
    (pool.advance event program).returned other = pool.returned other := by
  rw [returned, returned, advance_programs_of_ne different]

/-- The step of one caller leaves the last choices of the others. -/
theorem advance_lastChoice_of_ne (different : other ≠ event.caller) :
    (pool.advance event program).lastChoice reads other = pool.lastChoice reads other := by
  simp [lastChoice, advance, List.filter_append, different.symm]

/-- The caller of a step remembers its choice when it reads. -/
theorem advance_lastChoice_self :
    (pool.advance event program).lastChoice reads event.caller =
      if reads event.op then some event.choice else pool.lastChoice reads event.caller := by
  cases read : reads event.op <;> simp [lastChoice, advance, List.filter_append, read]

/-- A call that had not returned comes last in the order, if its result is effective now. -/
theorem advance_order (running : pool.returned event.caller = none) :
    (pool.advance event program).order effective = pool.order effective ++
      if program.result.any effective then [event.caller] else [] := by
  -- The step adds its caller to the history.
  have callers : (pool.advance event program).history.map Event.caller =
      pool.history.map Event.caller ++ [event.caller] := by simp [advance]
  rw [order, callers, filter_dedup_concat, List.filter_singleton, advance_returned_self,
    Bool.cond_eq_ite, order]
  congr 1
  -- Nothing else has changed, and the caller itself was not in the order before.
  apply List.filter_congr
  intro caller _
  by_cases same : caller = event.caller
  · simp [same, running]
  · simp [same, advance_returned_of_ne same]

end Advance

/--
A proof outline for calls that take effect at their last operation: what each call knows between its
operations, whatever the other calls do, suffices to see that its last operation does what the whole
call does when it runs alone.
-/
structure Outline (handle : κ → Handler Op Ans σ) (programs : ι → Program Op Ans α)
    (reads : Op → Bool) (effective : α → Bool) where
  /-- What a call knows about the state, given the last choice it read. -/
  Knows : ι → Option κ → Program Op Ans α → σ → Prop
  /-- What any operation may do to the state. -/
  Moves : σ → σ → Prop
  initial : ∀ caller state, Knows caller none (programs caller) state
  unsettled : ∀ {caller choice value state},
    Knows caller choice (.ret value) state → effective value = false
  stable : ∀ {caller choice program state state'},
    Knows caller choice program state → Moves state state' → Knows caller choice program state'
  moves : ∀ {caller choice op next state} (now : κ),
    Knows caller choice (.ask op next) state → Moves state (handle now op state).2
  /-- An operation either settles its call, or leaves the state as it was. -/
  settles : ∀ {caller choice op next state} (now : κ),
    Knows caller choice (.ask op next) state →
      let program := (handle now op state).1.elim .abort next
      let state' := (handle now op state).2
      let choice' := if reads op then some now else choice
      (∃ value made, program = .ret value ∧ effective value = true ∧ choice' = some made ∧
          (programs caller).run (handle made) state = (some value, state')) ∨
        (state' = state ∧ Knows caller choice' program state)

/-- A pool is as good as some of its calls, which run one at a time. -/
structure Linearized (handle : κ → Handler Op Ans σ) (programs : ι → Program Op Ans α)
    (reads : Op → Bool) (effective : α → Bool) (initial : σ) (pool : Pool ι Op Ans α κ σ) :
    Prop where
  /-- The order holds every call with an effective result. -/
  complete : ∀ caller, (pool.returned caller).any effective = true → caller ∈ pool.order effective
  /-- Each call, with the last choice it read, returns what it returned, and leaves the same state. -/
  serial : ∃ turns : List (ι × κ), turns.map Prod.fst = pool.order effective ∧
    (∀ turn ∈ turns, pool.lastChoice reads turn.1 = some turn.2) ∧
    Pool.serial handle programs initial turns =
      (turns.map fun turn => pool.returned turn.1, pool.state)
  /-- No operation of any other call has changed the state. -/
  silent : ∀ event ∈ pool.history, (pool.returned event.caller).any effective = false →
    event.after = event.before

section Linearized

variable {handle : κ → Handler Op Ans σ} {programs : ι → Program Op Ans α} {reads : Op → Bool}
  {effective : α → Bool} {initial : σ} {pool : Pool ι Op Ans α κ σ} {event : Event ι Op κ σ}
  {program : Program Op Ans α}

/-- Calls that have not begun are as good as no calls. -/
theorem Linearized.start (quiet : ∀ caller, (programs caller).result.any effective = false) :
    Linearized handle programs reads effective initial (Pool.start programs initial) := by
  -- No call has returned, and nothing has been asked.
  refine ⟨?_, ⟨[], rfl, by simp, rfl⟩, by simp [Pool.start]⟩
  intro caller settled
  rw [returned, Pool.start, quiet caller] at settled
  cases settled

/-- A settled call is in the order. -/
theorem mem_order {caller : ι} (settled : (pool.returned caller).any effective = true) :
    caller ∈ pool.order effective ↔ caller ∈ pool.history.map Event.caller := by
  -- The order keeps one occurrence of each settled caller in the history.
  rw [order, List.mem_filter, List.mem_dedup]
  exact and_iff_left settled

/-- Every call in the order is settled. -/
theorem settled_of_mem_order {caller : ι} (member : caller ∈ pool.order effective) :
    (pool.returned caller).any effective = true := (List.mem_filter.mp member).2

/-- Advancing a call that has not returned keeps every settled call in the order. -/
theorem Linearized.complete_advance
    (linearized : Linearized handle programs reads effective initial pool) :
    ∀ caller, ((pool.advance event program).returned caller).any effective = true →
      caller ∈ (pool.advance event program).order effective := by
  -- A settled call has asked something, and the history only grows.
  intro caller settled
  rw [mem_order settled]
  by_cases same : caller = event.caller
  · simp [advance, same]
  · rw [advance_returned_of_ne same] at settled
    have before := (mem_order settled).mp (linearized.complete caller settled)
    simp only [advance, List.map_append, List.mem_append]
    exact Or.inl before

/-- Turns of settled calls keep their choices and results while another call advances. -/
theorem turns_advance (running : pool.returned event.caller = none) {turns : List (ι × κ)}
    (calls : turns.map Prod.fst = pool.order effective) :
    ∀ turn ∈ turns, turn.1 ≠ event.caller := by
  -- The calls in the order have settled, and this one is still running.
  intro turn member same
  have settled := settled_of_mem_order (calls ▸ List.mem_map_of_mem member)
  rw [same, running] at settled
  cases settled

/-- An operation that settles its call adds the call at the end. -/
theorem Linearized.settle (linearized : Linearized handle programs reads effective initial pool)
    (running : pool.returned event.caller = none) {value : α} {made : κ}
    (settles : effective value = true)
    (read : (pool.advance event (.ret value)).lastChoice reads event.caller = some made)
    (ran : (programs event.caller).run (handle made) pool.state = (some value, event.after)) :
    Linearized handle programs reads effective initial (pool.advance event (.ret value)) := by
  -- The call has returned now, and nothing that it asked for is open.
  have returns : (pool.advance event (.ret value)).returned event.caller = some value :=
    advance_returned_self
  -- The turns of the other calls stay as they are, and this call takes the last one.
  obtain ⟨turns, calls, choices, runs⟩ := linearized.serial
  have others := turns_advance running calls
  refine ⟨linearized.complete_advance, ⟨turns ++ [(event.caller, made)], ?_, ?_, ?_⟩, ?_⟩
  · rw [advance_order running, List.map_append, calls]
    simp [Program.result, settles]
  · intro turn member
    rcases List.mem_append.mp member with earlier | last
    · rw [advance_lastChoice_of_ne (others turn earlier)]
      exact choices turn earlier
    · rw [List.mem_singleton.mp last]
      exact read
  · -- The call runs alone from the state that the earlier calls have left.
    rw [serial_concat, runs, List.map_append]
    have same : turns.map (fun turn => (pool.advance event (.ret value)).returned turn.1) =
        turns.map fun turn => pool.returned turn.1 := by
      apply List.map_congr_left
      intro turn member
      exact advance_returned_of_ne (others turn member)
    simp only [ran, same, List.map_cons, List.map_nil, returns]
    rfl
  · intro earlier member quiet
    rcases List.mem_append.mp member with old | new
    · by_cases same : earlier.caller = event.caller
      · rw [same, returns] at quiet
        exact absurd settles (by simpa using quiet)
      · rw [advance_returned_of_ne same] at quiet
        exact linearized.silent earlier old quiet
    · rw [List.mem_singleton.mp new, returns] at quiet
      exact absurd settles (by simpa using quiet)

/-- An operation that settles nothing changes nothing. -/
theorem Linearized.pass (linearized : Linearized handle programs reads effective initial pool)
    (running : pool.returned event.caller = none)
    (quiet : program.result.any effective = false)
    (from_ : event.before = pool.state) (unchanged : event.after = pool.state) :
    Linearized handle programs reads effective initial (pool.advance event program) := by
  -- Neither the order nor the state has changed.
  obtain ⟨turns, calls, choices, runs⟩ := linearized.serial
  have others := turns_advance running calls
  refine ⟨linearized.complete_advance, ⟨turns, ?_, ?_, ?_⟩, ?_⟩
  · rw [advance_order running, quiet, calls]
    simp
  · intro turn member
    rw [advance_lastChoice_of_ne (others turn member)]
    exact choices turn member
  · rw [runs]
    refine Prod.ext ?_ unchanged.symm
    apply List.map_congr_left
    intro turn member
    exact (advance_returned_of_ne (others turn member)).symm
  · intro earlier member silent
    rcases List.mem_append.mp member with old | new
    · by_cases same : earlier.caller = event.caller
      · exact linearized.silent earlier old (by rw [same, running]; rfl)
      · rw [advance_returned_of_ne same] at silent
        exact linearized.silent earlier old silent
    · rw [List.mem_singleton.mp new, from_, unchanged]

end Linearized

namespace Outline

variable {handle : κ → Handler Op Ans σ} {programs : ι → Program Op Ans α} {reads : Op → Bool}
  {effective : α → Bool}

/-- What an outline keeps true of a pool: its calls know what they should, and it is linearized. -/
structure Upheld (outline : Outline handle programs reads effective) (initial : σ)
    (pool : Pool ι Op Ans α κ σ) : Prop where
  knows : ∀ caller, (pool.returned caller).any effective = false →
    outline.Knows caller (pool.lastChoice reads caller) (pool.programs caller) pool.state
  linearized : Linearized handle programs reads effective initial pool

variable (outline : Outline handle programs reads effective) {initial : σ}
  {pool : Pool ι Op Ans α κ σ} {event : Event ι Op κ σ} {program : Program Op Ans α}

omit [DecidableEq ι] in
/-- A call that knows something has not settled. -/
theorem quiet_of_knows {caller : ι} {choice : Option κ} {state : σ}
    (knows : outline.Knows caller choice program state) :
    program.result.any effective = false := by
  -- Only a program that has returned has a result.
  cases program with
  | ret value => exact outline.unsettled knows
  | abort => rfl
  | ask op next => rfl

/-- An outline holds before any call begins. -/
theorem start_upheld : outline.Upheld initial (Pool.start programs initial) := by
  -- What a call knows at first also says that it has not settled.
  constructor
  · intro caller _
    exact outline.initial caller initial
  · apply Linearized.start
    intro caller
    exact outline.quiet_of_knows (outline.initial caller initial)

variable {outline}

/-- Every call that has not settled knows what it should after an operation of one of them. -/
theorem Upheld.knows_advance (upheld : outline.Upheld initial pool)
    (moved : outline.Moves pool.state event.after)
    (self : program.result.any effective = false → outline.Knows event.caller
      ((pool.advance event program).lastChoice reads event.caller) program event.after) :
    ∀ caller, ((pool.advance event program).returned caller).any effective = false →
      outline.Knows caller ((pool.advance event program).lastChoice reads caller)
        ((pool.advance event program).programs caller) event.after := by
  intro caller quiet
  by_cases same : caller = event.caller
  · subst same
    rw [advance_returned_self] at quiet
    rw [advance_programs_self]
    exact self quiet
  · -- What the other calls know is stable.
    rw [advance_returned_of_ne same] at quiet
    rw [advance_lastChoice_of_ne same, advance_programs_of_ne same]
    exact outline.stable (upheld.knows caller quiet) moved

/-- An outline holds across every operation. -/
theorem Upheld.step (upheld : outline.Upheld initial pool) (turn : ι × κ) :
    outline.Upheld initial (pool.step handle turn) := by
  -- Only a call that is still asking takes its turn.
  obtain ⟨caller, now⟩ := turn
  unfold Pool.step
  cases asks : pool.programs caller with
  | ret value => exact upheld
  | abort => exact upheld
  | ask op next =>
    have running : pool.returned caller = none := by simp [returned, Program.result, asks]
    have known := upheld.knows caller (by simp [running])
    rw [asks] at known
    have moved := outline.moves now known
    have outcome := outline.settles now known
    simp only
    generalize (handle now op pool.state).1.elim .abort next = program at outcome ⊢
    generalize answered : (handle now op pool.state).2 = after at moved outcome ⊢
    let event : Event ι Op κ σ := ⟨caller, op, now, pool.state, after⟩
    show outline.Upheld initial (pool.advance event program)
    have choice : (pool.advance event program).lastChoice reads caller =
        if reads op then some now else pool.lastChoice reads caller := advance_lastChoice_self
    rcases outcome with ⟨value, made, returns, settles, read, ran⟩ | ⟨unchanged, knows⟩
    · -- The operation settles its call, which knows nothing any more.
      subst returns
      refine ⟨upheld.knows_advance moved ?_, ?_⟩
      · intro quiet
        exact absurd settles (by simpa [Program.result] using quiet)
      · exact upheld.linearized.settle running settles (choice.trans read) ran
    · have quiet := outline.quiet_of_knows knows
      refine ⟨upheld.knows_advance moved ?_, ?_⟩
      · intro _
        show outline.Knows caller _ program after
        rw [choice, unchanged]
        exact knows
      · exact upheld.linearized.pass running quiet rfl unchanged

/-- An outline holds after every schedule. -/
theorem Upheld.execute (upheld : outline.Upheld initial pool) (schedule : List (ι × κ)) :
    outline.Upheld initial (pool.execute handle schedule) := by
  -- One operation after another upholds the outline.
  induction schedule generalizing pool with
  | nil => exact upheld
  | cons turn rest ih => exact ih (upheld.step turn)

/-- Calls with an outline are linearized by every schedule. -/
theorem linearized (outline : Outline handle programs reads effective) (initial : σ)
    (schedule : List (ι × κ)) :
    Linearized handle programs reads effective initial
      ((Pool.start programs initial).execute handle schedule) :=
  (outline.start_upheld.execute schedule).linearized

end Outline

end Pool

end Interaction
