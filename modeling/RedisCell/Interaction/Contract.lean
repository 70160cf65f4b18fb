import RedisCell.Interaction.Asked

/-! Contracts between a program and its environment, which each keeps while the other one does. -/

namespace Interaction

/-- What may be asked in each phase, what may be answered then, and the phase an answer leads to. -/
structure Contract (Op : Type) (Ans : Op → Type) (φ : Type) where
  Requires : φ → Op → Prop
  Ensures : φ → (op : Op) → Ans op → Prop
  after : φ → (op : Op) → Ans op → φ

variable {Op Op' : Type} {Ans : Op → Type} {Ans' : Op' → Type} {φ α β ε σ : Type}

namespace Contract

variable (contract : Contract Op Ans φ)

/-- Every answer of a run is one that the contract ensures. -/
def Honest : φ → List ((op : Op) × Ans op) → Prop
  | _, [] => True
  | phase, exchange :: rest => contract.Ensures phase exchange.1 exchange.2 ∧
    Honest (contract.after phase exchange.1 exchange.2) rest

/-- Every operation of a run is one that the contract requires, and they lead to a last phase. -/
inductive Kept : φ → List ((op : Op) × Ans op) → φ → Prop where
  | nil (phase : φ) : Kept phase [] phase
  | cons {phase last : φ} {op : Op} {answer : Ans op} {rest : List ((op : Op) × Ans op)}
    (required : contract.Requires phase op)
    (others : Kept (contract.after phase op answer) rest last) :
    Kept phase (⟨op, answer⟩ :: rest) last

/-- An environment is honest when its state meets an invariant that follows the phase. -/
theorem honest_of_invariant {contract : Contract Op Ans φ} {handle : Handler Op Ans σ}
    (Invariant : φ → σ → Prop)
    (step : ∀ phase op answer state state', Invariant phase state →
      handle op state = (some answer, state') → contract.Ensures phase op answer ∧
        Invariant (contract.after phase op answer) state')
    (program : Program Op Ans α) {phase : φ} {state : σ} (before : Invariant phase state) :
    contract.Honest phase (program.exchanges handle state) := by
  -- Each answer is given in the phase that the earlier ones lead to.
  induction program generalizing phase state with
  | ret value => trivial
  | abort => trivial
  | ask op next ih =>
    simp only [Program.exchanges]
    cases answered : handle op state with
    | mk answer state' =>
      cases answer with
      | none => trivial
      | some answer =>
        obtain ⟨ensured, kept⟩ := step phase op answer state state' before answered
        exact ⟨ensured, ih answer kept⟩

end Contract

namespace Program

/--
A program asks only what its phase requires while its answers are ensured, and the value and the
phase it returns with satisfy the postcondition.
-/
def Conforms (contract : Contract Op Ans φ) (post : α → φ → Prop) : φ → Program Op Ans α → Prop
  | phase, .ret value => post value phase
  -- A program that is gone has nothing left to keep.
  | _, .abort => True
  | phase, .ask op next => contract.Requires phase op ∧ ∀ answer,
    contract.Ensures phase op answer →
      (next answer).Conforms contract post (contract.after phase op answer)

variable {contract : Contract Op Ans φ} {phase : φ} {program : Program Op Ans α}
  {post : α → φ → Prop}

/-- A weaker postcondition holds as well. -/
theorem Conforms.mono {weaker : α → φ → Prop} (conforms : program.Conforms contract post phase)
    (implies : ∀ value last, post value last → weaker value last) :
    program.Conforms contract weaker phase := by
  -- The condition is met where the program returns, whatever it has asked before.
  induction program generalizing phase with
  | ret value => exact implies value phase conforms
  | abort => trivial
  | ask op next ih =>
    exact ⟨conforms.1, fun answer ensured => ih answer (conforms.2 answer ensured)⟩

/-- In a sequence the second part starts from the phase that the first one returns in. -/
theorem Conforms.bind {next : α → Program Op Ans β} {out : β → φ → Prop}
    (first : program.Conforms contract post phase)
    (rest : ∀ value last, post value last → (next value).Conforms contract out last) :
    (program >>= next).Conforms contract out phase := by
  -- The continuation takes over where the first part returns.
  induction program generalizing phase with
  | ret value => exact rest value phase first
  | abort => trivial
  | ask op more ih => exact ⟨first.1, fun answer ensured => ih answer (first.2 answer ensured)⟩

/-- One operation that is required conforms to what each of its answers leads to. -/
theorem conforms_lift {op : Op} {post : Ans op → φ → Prop} (required : contract.Requires phase op)
    (answers : ∀ answer, contract.Ensures phase op answer →
      post answer (contract.after phase op answer)) :
    (lift op).Conforms contract post phase :=
  ⟨required, answers⟩

/--
A program that conforms to one contract conforms to another one when its operations are carried out
by programs that do, where related phases stay related and the answers are those ensured.
-/
theorem Conforms.translate {ψ : Type} {outer : Contract Op' Ans' ψ}
    {impl : (op : Op) → Program Op' Ans' (Ans op)} (Related : φ → ψ → Prop)
    (carries : ∀ phase stage op, Related phase stage → contract.Requires phase op →
      (impl op).Conforms outer (fun answer last => contract.Ensures phase op answer ∧
        Related (contract.after phase op answer) last) stage)
    (conforms : program.Conforms contract post phase) {stage : ψ} (related : Related phase stage) :
    (program.translate impl).Conforms outer
      (fun value last => ∃ phase, post value phase ∧ Related phase last) stage := by
  -- Each operation is followed by what goes on with its answer.
  induction program generalizing phase stage with
  | ret value => exact ⟨phase, conforms, related⟩
  | abort => trivial
  | ask op next ih =>
    refine (carries phase stage op related conforms.1).bind fun answer last reached => ?_
    exact ih answer (conforms.2 answer reached.1) reached.2

/-- A fallible sequence starts its second part only where its first one has succeeded. -/
theorem Conforms.except_bind {program : ExceptT ε (Program Op Ans) α}
    {next : α → ExceptT ε (Program Op Ans) β} {middle : Except ε α → φ → Prop}
    {out : Except ε β → φ → Prop} (first : program.run.Conforms contract middle phase)
    (errors : ∀ error last, middle (.error error) last → out (.error error) last)
    (rest : ∀ value last, middle (.ok value) last → (next value).run.Conforms contract out last) :
    (program >>= next).run.Conforms contract out phase := by
  rw [ExceptT.run_bind]
  refine first.bind fun result last reached => ?_
  -- An error skips the rest and has to meet the last condition itself.
  cases result with
  | error error => exact errors error last reached
  | ok value => exact rest value last reached

/-- The run of a program keeps its contract while the environment is honest. -/
theorem Conforms.kept (conforms : program.Conforms contract post phase) (handle : Handler Op Ans σ)
    (state : σ) (honest : contract.Honest phase (program.exchanges handle state)) :
    ∃ last, contract.Kept phase (program.exchanges handle state) last ∧
      ∀ value, (program.run handle state).1 = some value → post value last := by
  induction program generalizing phase state with
  -- Nothing more is exchanged, and the phase is the last one.
  | ret value =>
    refine ⟨phase, .nil phase, fun other same => ?_⟩
    cases same
    exact conforms
  | abort => exact ⟨phase, .nil phase, fun other same => by cases same⟩
  | ask op next ih =>
    simp only [exchanges, run] at honest ⊢
    -- An answer that keeps to the contract leads to the next phase.
    cases answered : handle op state with
    | mk answer state' =>
      rw [answered] at honest
      cases answer with
      | none => exact ⟨phase, .nil phase, fun other same => by cases same⟩
      | some answer =>
        obtain ⟨last, kept, returns⟩ := ih answer (conforms.2 answer honest.1) state' honest.2
        exact ⟨last, .cons conforms.1 kept, returns⟩

end Program

end Interaction
