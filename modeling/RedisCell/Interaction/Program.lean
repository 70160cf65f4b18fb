import Mathlib.Tactic.Common

/-! Programs that ask operations of an environment, and their meaning under a handler. -/

namespace Interaction

/-- A computation that asks operations of its environment and continues with each answer. -/
inductive Program (Op : Type) (Ans : Op → Type) (α : Type) where
  /-- The computation has reached its result. -/
  | ret (value : α)
  /-- The computation stops without a result, as an uncaught panic does. -/
  | abort
  /-- One operation is asked, and every possible answer has its own continuation. -/
  | ask (op : Op) (next : Ans op → Program Op Ans α)

/-- An environment answers each operation, or aborts in it, and moves to its next state. -/
abbrev Handler (Op : Type) (Ans : Op → Type) (σ : Type) := (op : Op) → σ → Option (Ans op) × σ

namespace Program

variable {Op Op' : Type} {Ans : Op → Type} {Ans' : Op' → Type} {α β γ σ τ : Type}

/-- Continue a program with another one that depends on its result. -/
def bind : Program Op Ans α → (α → Program Op Ans β) → Program Op Ans β
  -- An aborted program never reaches its continuation.
  | .ret value, next => next value
  | .abort, _ => .abort
  | .ask op rest, next => .ask op fun answer => (rest answer).bind next

instance : Monad (Program Op Ans) where
  pure := ret
  bind := bind

/-- Ask one operation and return its answer unchanged. -/
def lift (op : Op) : Program Op Ans (Ans op) := .ask op .ret

/-- Carry out every operation of a program by a program over another environment. -/
def translate (impl : (op : Op) → Program Op' Ans' (Ans op)) :
    Program Op Ans α → Program Op' Ans' α
  -- The implementation's result is the answer the original program continues with.
  | .ret value => .ret value
  | .abort => .abort
  | .ask op next => (impl op).bind fun answer => (next answer).translate impl

/-- Run a program to its result, or to no result when it aborts, in a handled environment. -/
def run (handle : Handler Op Ans σ) : Program Op Ans α → σ → Option α × σ
  -- The state reached before an abort stays visible.
  | .ret value, state => (some value, state)
  | .abort, state => (none, state)
  | .ask op next, state =>
    match handle op state with
    | (some answer, state') => (next answer).run handle state'
    | (none, state') => (none, state')

/-- The operations a program asks when it runs, in order. -/
def asked (handle : Handler Op Ans σ) : Program Op Ans α → σ → List Op
  -- Each answer chooses the operations that follow it.
  | .ret _, _ => []
  | .abort, _ => []
  | .ask op next, state =>
    match handle op state with
    | (some answer, state') => op :: (next answer).asked handle state'
    | (none, _) => [op]

/-- A program that has returned goes on with its value. -/
@[simp] theorem ret_bind (value : α) (next : α → Program Op Ans β) :
    (.ret value : Program Op Ans α) >>= next = next value := rfl

/-- A program that asks goes on after its answer. -/
@[simp] theorem ask_bind (op : Op) (rest : Ans op → Program Op Ans α)
    (next : α → Program Op Ans β) :
    (.ask op rest : Program Op Ans α) >>= next = .ask op fun answer => rest answer >>= next := rfl

/-- A program that has returned has nothing left to translate. -/
@[simp] theorem translate_ret (impl : (op : Op) → Program Op' Ans' (Ans op)) (value : α) :
    (.ret value : Program Op Ans α).translate impl = .ret value := rfl

/-- What is asked is translated first, and then the rest. -/
@[simp] theorem translate_ask (impl : (op : Op) → Program Op' Ans' (Ans op)) (op : Op)
    (next : Ans op → Program Op Ans α) :
    (Program.ask op next).translate impl =
      impl op >>= fun answer => (next answer).translate impl := rfl

/-- A program that has returned leaves the state. -/
@[simp] theorem run_ret (handle : Handler Op Ans σ) (value : α) (state : σ) :
    (.ret value : Program Op Ans α).run handle state = (some value, state) := rfl

/-- A program that stops leaves the state and gives no value. -/
@[simp] theorem run_abort (handle : Handler Op Ans σ) (state : σ) :
    (.abort : Program Op Ans α).run handle state = (none, state) := rfl

/-- An answered operation runs its continuation in the state the answer came with. -/
theorem run_ask (handle : Handler Op Ans σ) {op : Op} (next : Ans op → Program Op Ans α)
    {state state' : σ} {answer : Ans op} (answered : handle op state = (some answer, state')) :
    (Program.ask op next).run handle state = (next answer).run handle state' := by
  -- Only the answered branch of the interpreter is taken.
  simp [run, answered]

/-- Running a sequence runs its second part from where the first one stopped. -/
theorem run_bind (handle : Handler Op Ans σ) (program : Program Op Ans α)
    (next : α → Program Op Ans β) (state : σ) :
    (program >>= next).run handle state =
      match program.run handle state with
      | (some value, state') => (next value).run handle state'
      | (none, state') => (none, state') := by
  -- The first part asks the same operations whether or not something follows it.
  induction program generalizing state with
  | ret value => rfl
  | abort => rfl
  | ask op rest ih =>
    simp only [ask_bind, run]
    split
    · exact ih _ _
    · rfl

/-- Running a translated program handles each operation by running its implementation. -/
theorem run_translate (handle : Handler Op' Ans' σ)
    (impl : (op : Op) → Program Op' Ans' (Ans op)) (program : Program Op Ans α) (state : σ) :
    (program.translate impl).run handle state =
      program.run (fun op state => (impl op).run handle state) state := by
  -- Each asked operation is one sequenced implementation, whose outcome decides the rest.
  induction program generalizing state with
  | ret value => rfl
  | abort => rfl
  | ask op next ih =>
    simp only [translate_ask, run_bind, run]
    cases (impl op).run handle state with
    | mk answer state' =>
      cases answer with
      | none => rfl
      | some answer => exact ih answer state'

/-- The first environment computes what the second one does, seen through a view of its state. -/
def Simulates (handle : Handler Op Ans σ) (abstract : Handler Op Ans τ) (view : σ → τ) : Prop :=
  -- Answers agree exactly, and the viewed states stay in step.
  ∀ op state, abstract op (view state) = ((handle op state).1, view (handle op state).2)

/-- A simulated environment gives every program the same result and the viewed final state. -/
theorem Simulates.run {handle : Handler Op Ans σ} {abstract : Handler Op Ans τ} {view : σ → τ}
    (simulates : Simulates handle abstract view) (program : Program Op Ans α) (state : σ) :
    program.run abstract (view state) =
      ((program.run handle state).1, view (program.run handle state).2) := by
  -- Agreement on one operation passes to the continuation through its equal answer.
  induction program generalizing state with
  | ret value => rfl
  | abort => rfl
  | ask op next ih =>
    simp only [Program.run, simulates op state]
    cases answered : handle op state with
    | mk answer state' =>
      cases answer with
      | none => rfl
      | some answer => exact ih answer state'

/-- A simulated environment is asked exactly the same operations. -/
theorem Simulates.asked {handle : Handler Op Ans σ} {abstract : Handler Op Ans τ} {view : σ → τ}
    (simulates : Simulates handle abstract view) (program : Program Op Ans α) (state : σ) :
    program.asked abstract (view state) = program.asked handle state := by
  -- Equal answers choose equal continuations, so the recorded operations never part.
  induction program generalizing state with
  | ret value => rfl
  | abort => rfl
  | ask op next ih =>
    simp only [Program.asked, simulates op state]
    cases answered : handle op state with
    | mk answer state' =>
      cases answer with
      | none => rfl
      | some answer => exact congrArg (op :: ·) (ih answer state')

section Fallible

variable {ε : Type} {handle : Handler Op Ans σ} {program : ExceptT ε (Program Op Ans) α}
  {next : α → ExceptT ε (Program Op Ans) β} {state state' : σ}

/-- A fallible sequence continues from a first part that succeeds. -/
theorem run_bind_ok {value : α} (first : program.run.run handle state = (some (.ok value), state')) :
    (program >>= next).run.run handle state = (next value).run.run handle state' := by
  rw [ExceptT.run_bind, run_bind, first]

/-- A fallible sequence ends with the error of its first part. -/
theorem run_bind_error {error : ε}
    (first : program.run.run handle state = (some (.error error), state')) :
    (program >>= next).run.run handle state = (some (.error error), state') := by
  -- An error goes past the rest.
  rw [ExceptT.run_bind, run_bind, first]
  rfl

/-- A fallible sequence stops where its first part aborts. -/
theorem run_bind_abort (first : program.run.run handle state = (none, state')) :
    (program >>= next).run.run handle state = (none, state') := by
  rw [ExceptT.run_bind, run_bind, first]

end Fallible

end Program

end Interaction
