import RedisCell.Interaction.Program

/-! What a program asks: sequences ask their parts in order, and confined programs ask nothing else. -/

namespace Interaction

namespace Program

variable {Op Op' : Type} {Ans : Op → Type} {Ans' : Op' → Type} {α β σ : Type}

/-- A program followed by nothing is itself. -/
theorem bind_ret (program : Program Op Ans α) : program >>= ret = program := by
  -- The last continuation returns what it is given.
  induction program with
  | ret value => rfl
  | abort => rfl
  | ask op next ih =>
    rw [ask_bind]
    congr
    funext answer
    exact ih answer

/-- Sequences may be taken together in either order. -/
theorem bind_bind {γ : Type} (program : Program Op Ans α) (next : α → Program Op Ans β)
    (last : β → Program Op Ans γ) :
    program >>= next >>= last = program >>= fun value => next value >>= last := by
  induction program with
  | ret value => rfl
  | abort => rfl
  -- Every continuation is regrouped after the question is answered.
  | ask op rest ih =>
    simp only [ask_bind]
    congr
    funext answer
    exact ih answer

/-- Translation keeps sequences. -/
theorem translate_bind (impl : (op : Op) → Program Op' Ans' (Ans op)) (program : Program Op Ans α)
    (next : α → Program Op Ans β) :
    (program >>= next).translate impl =
      program.translate impl >>= fun value => (next value).translate impl := by
  -- The inductions follow the program, and then what its operation is carried out by.
  induction program with
  | ret value => rfl
  | abort => rfl
  | ask op rest ih =>
    simp only [ask_bind, translate_ask, ih]
    -- The implementation of the first operation is followed by the same rest on both sides.
    induction impl op with
    | ret value => rfl
    | abort => rfl
    | ask op' next' ih' =>
      simp only [ask_bind]
      congr
      funext answer
      exact ih' answer

/-- A sequence asks its first part, and then what follows from its result. -/
theorem asked_bind (handle : Handler Op Ans σ) (program : Program Op Ans α)
    (next : α → Program Op Ans β) (state : σ) :
    (program >>= next).asked handle state =
      program.asked handle state ++
        match program.run handle state with
        | (some value, state') => (next value).asked handle state'
        | (none, _) => [] := by
  -- The first part asks the same operations whether or not something follows it.
  induction program generalizing state with
  | ret value => rfl
  | abort => rfl
  | ask op rest ih =>
    simp only [ask_bind, asked, run]
    cases handle op state with
    | mk answer state' =>
      cases answer with
      | none => rfl
      | some answer => exact congrArg (op :: ·) (ih answer state')

/-- The operations a program asks when it runs, each with the answer it is given, in order. -/
def exchanges (handle : Handler Op Ans σ) : Program Op Ans α → σ → List ((op : Op) × Ans op)
  -- An operation that is not answered is no exchange.
  | .ret _, _ => []
  | .abort, _ => []
  | .ask op next, state =>
    match handle op state with
    | (some answer, state') => ⟨op, answer⟩ :: (next answer).exchanges handle state'
    | (none, _) => []

/-- A program that has returned exchanges nothing. -/
@[simp] theorem exchanges_ret (handle : Handler Op Ans σ) (value : α) (state : σ) :
    (.ret value : Program Op Ans α).exchanges handle state = [] := rfl

/-- An answered operation is exchanged before those of its continuation. -/
theorem exchanges_ask (handle : Handler Op Ans σ) {op : Op} (next : Ans op → Program Op Ans α)
    {state state' : σ} {answer : Ans op} (answered : handle op state = (some answer, state')) :
    (Program.ask op next).exchanges handle state =
      ⟨op, answer⟩ :: (next answer).exchanges handle state' := by
  -- Only the answered branch is taken.
  simp [exchanges, answered]

/-- A program that returns goes on with the answer to the operation it asks first. -/
theorem exchanges_of_returned {handle : Handler Op Ans σ} {op : Op} {next : Ans op → Program Op Ans α}
    {state : σ} {result : α} (returned : ((lift op >>= next).run handle state).1 = some result) :
    ∃ answer state', (lift op >>= next).exchanges handle state =
        ⟨op, answer⟩ :: (next answer).exchanges handle state' ∧
      ((next answer).run handle state').1 = some result := by
  -- The program begins with the question, so it has been answered.
  have asks : lift op >>= next = .ask op next := rfl
  rw [asks] at returned ⊢
  simp only [run] at returned
  cases answered : handle op state with
  | mk answer state' =>
    rw [answered] at returned
    cases answer with
    | none => cases returned
    | some answer => exact ⟨answer, state', exchanges_ask handle next answered, returned⟩

/-- Every operation that a program could ask, whatever it is answered, is permitted. -/
def Confined (permitted : Op → Prop) : Program Op Ans α → Prop
  | .ret _ => True
  | .abort => True
  | .ask op next => permitted op ∧ ∀ answer, (next answer).Confined permitted

/-- A sequence of confined parts is confined. -/
theorem Confined.bind {permitted : Op → Prop} {program : Program Op Ans α}
    {next : α → Program Op Ans β} (first : program.Confined permitted)
    (rest : ∀ value, (next value).Confined permitted) : (program >>= next).Confined permitted := by
  -- The continuation takes over where the first part returns.
  induction program with
  | ret value => exact rest value
  | abort => exact first
  | ask op next' ih => exact ⟨first.1, fun answer => ih answer (first.2 answer)⟩

/-- A confined program asks only what is permitted. -/
theorem Confined.asked {permitted : Op → Prop} {program : Program Op Ans α}
    (confined : program.Confined permitted) (handle : Handler Op Ans σ) (state : σ) :
    ∀ op ∈ program.asked handle state, permitted op := by
  -- The first operation is permitted, and the induction covers those after its answer.
  induction program generalizing state with
  | ret value => simp [Program.asked]
  | abort => simp [Program.asked]
  | ask op next ih =>
    intro other member
    simp only [Program.asked] at member
    cases answered : handle op state with
    | mk answer state' =>
      rw [answered] at member
      cases answer with
      | none =>
        rw [List.mem_singleton.mp member]
        exact confined.1
      | some answer =>
        rcases List.mem_cons.mp member with same | later
        · rw [same]
          exact confined.1
        · exact ih answer (confined.2 answer) state' other later

/-- A program in one state has the outcome of another one in a later state, whose operations it asks
last. -/
structure Proceeds (handle : Handler Op Ans σ) (program : Program Op Ans α) (state : σ)
    (rest : Program Op Ans α) (state' : σ) : Prop where
  run : program.run handle state = rest.run handle state'
  asked : rest.asked handle state' <:+ program.asked handle state

/-- A program proceeds to itself. -/
theorem Proceeds.refl (handle : Handler Op Ans σ) (program : Program Op Ans α) (state : σ) :
    Proceeds handle program state program state :=
  ⟨rfl, List.suffix_refl _⟩

/-- A program that proceeds in two steps proceeds. -/
theorem Proceeds.trans {handle : Handler Op Ans σ} {first second third : Program Op Ans α}
    {state state' state'' : σ} (one : Proceeds handle first state second state')
    (two : Proceeds handle second state' third state'') :
    Proceeds handle first state third state'' :=
  ⟨one.run.trans two.run, two.asked.trans one.asked⟩

/-- Two programs ask the same operations in one state, and come to the same end. -/
structure Agrees (handle : Handler Op Ans σ) (state : σ) (program program' : Program Op Ans α) :
    Prop where
  run : program.run handle state = program'.run handle state
  asked : program.asked handle state = program'.asked handle state

/-- Sequences agree when their first parts do, and what follows agrees after each value of them. -/
theorem Agrees.bind {handle : Handler Op Ans σ} {state : σ} {program program' : Program Op Ans α}
    {next next' : α → Program Op Ans β} (first : Agrees handle state program program')
    (rest : ∀ value state', program.run handle state = (some value, state') →
      Agrees handle state' (next value) (next' value)) :
    Agrees handle state (program >>= next) (program' >>= next') := by
  constructor
  · -- Both go on with the same value from the same state.
    rw [run_bind, run_bind, ← first.run]
    cases returned : program.run handle state with
    | mk value state' =>
      cases value with
      | none => rfl
      | some value => exact (rest value state' returned).run
  · -- They have asked the same so far, and ask the same after.
    rw [asked_bind, asked_bind, ← first.run, first.asked]
    cases returned : program.run handle state with
    | mk value state' =>
      cases value with
      | none => rfl
      | some value => exact congrArg _ (rest value state' returned).asked

section Fallible

variable {ε : Type} {handle : Handler Op Ans σ} {program : ExceptT ε (Program Op Ans) α}
  {next : α → ExceptT ε (Program Op Ans) β} {state state' : σ}

/-- A fallible sequence proceeds to its second part after a first part that succeeds. -/
theorem Proceeds.bind_ok {value : α}
    (first : program.run.run handle state = (some (.ok value), state')) :
    Proceeds handle (program >>= next).run state (next value).run state' := by
  -- What the first part has asked comes before the rest.
  refine ⟨run_bind_ok first, program.run.asked handle state, ?_⟩
  rw [ExceptT.run_bind, asked_bind, first]

/-- A fallible sequence asks nothing after a first part that fails. -/
theorem asked_bind_error {error : ε}
    (first : program.run.run handle state = (some (.error error), state')) :
    (program >>= next).run.asked handle state = program.run.asked handle state := by
  -- After an error nothing is left to ask.
  rw [ExceptT.run_bind, asked_bind, first]
  exact List.append_nil _

/-- A fallible sequence asks everything its first part does. -/
theorem mem_asked_bind {op : Op} (member : op ∈ program.run.asked handle state) :
    op ∈ (program >>= next).run.asked handle state := by
  -- What the first part asks comes first.
  rw [ExceptT.run_bind, asked_bind]
  exact List.mem_append_left _ member

/-- Fallible sequences agree when their first parts do, and what follows the values of them. -/
theorem Agrees.except_bind {program' : ExceptT ε (Program Op Ans) α}
    {next' : α → ExceptT ε (Program Op Ans) β} (first : Agrees handle state program.run program'.run)
    (rest : ∀ value state', program.run.run handle state = (some (.ok value), state') →
      Agrees handle state' (next value).run (next' value).run) :
    Agrees handle state (program >>= next).run (program' >>= next').run := by
  rw [ExceptT.run_bind, ExceptT.run_bind]
  refine first.bind fun result state' returned => ?_
  -- An error ends both programs at once.
  cases result with
  | error error => exact ⟨rfl, rfl⟩
  | ok value => exact rest value state' returned

/-- A fallible sequence of confined parts is confined. -/
theorem Confined.except_bind {permitted : Op → Prop} (first : program.run.Confined permitted)
    (rest : ∀ value, (next value).run.Confined permitted) :
    (program >>= next).run.Confined permitted := by
  -- An error asks nothing more.
  rw [ExceptT.run_bind]
  refine first.bind fun result => ?_
  cases result with
  | error error => trivial
  | ok value => exact rest value

end Fallible

end Program

end Interaction
