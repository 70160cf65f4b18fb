import RedisCell.Interaction.Ownership
import Mathlib.Order.Defs.Unbundled

/-! Programs that use a memory besides their environment, compared with programs that need none. -/

namespace Interaction

namespace Program

variable {Op Op' : Type} {Ans : Op → Type} {Ans' : Op' → Type} {α β ρ ρ' ε σ μ : Type}

/--
A program with a memory does what an erased program does without one: it has the same outcome and
moves the environment alike, and unless both abort its memory is as it was.
-/
def Erases (handle : Handler Op Ans (σ × μ)) (handle' : Handler Op' Ans' σ) (same : μ → μ → Prop)
    (memory : μ) (program : Program Op Ans α) (erased : Program Op' Ans' α) : Prop :=
  ∀ state, ∃ memory', program.run handle (state, memory) =
      ((erased.run handle' state).1, (erased.run handle' state).2, memory') ∧
    ((erased.run handle' state).1 ≠ none → same memory' memory)

variable {handle : Handler Op Ans (σ × μ)} {handle' : Handler Op' Ans' σ} {same : μ → μ → Prop}
  {memory : μ}

/-- An operation that is not answered ends the program. -/
theorem run_ask_none {op : Op} (next : Ans op → Program Op Ans α) {handle : Handler Op Ans σ}
    {state state' : σ} (unanswered : handle op state = (none, state')) :
    (Program.ask op next).run handle state = (none, state') := by
  simp [run, unanswered]

/-- A result needs no memory. -/
theorem erases_ret [Std.Refl same] (value : α) :
    Erases handle handle' same memory (.ret value) (.ret value) :=
  fun _ => ⟨memory, rfl, fun _ => Std.Refl.refl memory⟩

/-- An abort leaves no memory to compare. -/
theorem erases_abort : Erases handle handle' same memory (.abort : Program Op Ans α) .abort :=
  fun _ => ⟨memory, rfl, fun impossible => absurd rfl impossible⟩

/-- A sequence erases to a sequence. -/
theorem Erases.bind [IsTrans μ same] {program : Program Op Ans α} {erased : Program Op' Ans' α}
    {next : α → Program Op Ans β} {next' : α → Program Op' Ans' β}
    (first : Erases handle handle' same memory program erased)
    (rest : ∀ value memory', same memory' memory →
      Erases handle handle' same memory' (next value) (next' value)) :
    Erases handle handle' same memory (program >>= next) (erased >>= next') := by
  -- The second part starts from the memory that the first one leaves.
  intro state
  obtain ⟨memory', ran, restored⟩ := first state
  rw [run_bind, run_bind, ran]
  cases outcome : erased.run handle' state with
  | mk value state' =>
    cases value with
    | none => exact ⟨memory', rfl, fun impossible => absurd rfl impossible⟩
    | some value =>
      -- The second part starts with the memory that the first one has restored.
      rw [outcome] at restored
      have back := restored (Option.some_ne_none value)
      obtain ⟨memory'', later, again⟩ := rest value memory' back state'
      exact ⟨memory'', later, fun returns =>
        IsTrans.trans _ _ _ (again returns) back⟩

/-- Programs that are carried out by operations that erase are erased alike. -/
theorem Erases.translate {Asked : Type} {Answer : Asked → Type}
    [Std.Refl same] [IsTrans μ same] {impl : (op : Asked) → Program Op Ans (Answer op)}
    {impl' : (op : Asked) → Program Op' Ans' (Answer op)}
    (erases : ∀ op memory, Erases handle handle' same memory (impl op) (impl' op))
    (program : Program Asked Answer α) (memory : μ) :
    Erases handle handle' same memory (program.translate impl) (program.translate impl') := by
  -- The induction follows the program.
  induction program generalizing memory with
  | ret value => exact erases_ret value
  | abort => exact erases_abort
  -- What is asked is erased in its translation, and the rest goes on from there.
  | ask op next ih => exact (erases op memory).bind fun answer memory' _ => ih answer memory'

/-- A fallible sequence erases to a fallible sequence. -/
theorem Erases.except_bind [Std.Refl same] [IsTrans μ same]
    {program : ExceptT ε (Program Op Ans) α} {erased : ExceptT ε (Program Op' Ans') α}
    {next : α → ExceptT ε (Program Op Ans) β} {next' : α → ExceptT ε (Program Op' Ans') β}
    (first : Erases handle handle' same memory program.run erased.run)
    (rest : ∀ value memory', same memory' memory →
      Erases handle handle' same memory' (next value).run (next' value).run) :
    Erases handle handle' same memory (program >>= next).run (erased >>= next').run := by
  rw [ExceptT.run_bind, ExceptT.run_bind]
  refine first.bind fun result memory' back => ?_
  -- An error ends both programs, with the memory as it is.
  cases result with
  | error error => exact erases_ret _
  | ok value => exact rest value memory' back

/-- A resource and the value that stands for it in the erased program, acquired in one state. -/
def Acquires (handle : Handler Op Ans (σ × μ)) (handle' : Handler Op' Ans' σ)
    (stands : ρ → ρ' → μ → Prop) (memory : μ) (acquire : Program Op Ans ρ)
    (acquire' : ExceptT ε (Program Op' Ans') ρ') : Prop :=
  ∀ state,
    (∃ resource value state' memory', acquire.run handle (state, memory) =
        (some resource, state', memory') ∧
      acquire'.run.run handle' state = (some (.ok value), state') ∧ stands resource value memory') ∨
    ∃ state' memory', acquire.run handle (state, memory) = (none, state', memory') ∧
      acquire'.run.run handle' state = (none, state')

/-- A scope erases to a sequence, when the drop of its resource restores the memory. -/
theorem Erases.inScope {acquire : Program Op Ans ρ} {drop : ρ → Program Op Ans Unit}
    {body : ρ → ExceptT ε (Program Op Ans) α} {acquire' : ExceptT ε (Program Op' Ans') ρ'}
    {body' : ρ' → ExceptT ε (Program Op' Ans') α} {stands : ρ → ρ' → μ → Prop}
    (opens : Acquires handle handle' stands memory acquire acquire')
    (keeps : ∀ {resource value inside}, stands resource value inside →
      Erases handle handle' same inside (body resource).run (body' value).run)
    (closes : ∀ {resource value inside after}, stands resource value inside → same after inside →
      ∀ state, ∃ last, (drop resource).run handle (state, after) = (some (), state, last) ∧
        same last memory) :
    Erases handle handle' same memory (inScope acquire drop body).run
      (acquire' >>= body').run := by
  -- The resource is acquired, used, and dropped in a memory that is as it was.
  intro state
  show ∃ memory', (acquire >>= fun resource => (body resource).run >>= fun result =>
    drop resource >>= fun _ => ret result).run handle (state, memory) = _ ∧ _
  rw [run_bind]
  rcases opens state with ⟨resource, value, state', inside, acquired, acquired', stands⟩ |
    ⟨state', inside, aborted, aborted'⟩
  · rw [acquired, run_bind_ok acquired']
    obtain ⟨after, ran, restored⟩ := keeps stands state'
    simp only [run_bind, ran]
    cases outcome : (body' value).run.run handle' state' with
    | mk result state'' =>
      cases result with
      | none => exact ⟨after, rfl, fun impossible => absurd rfl impossible⟩
      | some result =>
        -- The drop follows a result, whether that is a value or an error.
        rw [outcome] at restored
        obtain ⟨last, dropped, back⟩ :=
          closes stands (restored (Option.some_ne_none result)) state''
        simp only [dropped]
        exact ⟨last, rfl, fun _ => back⟩
  · -- What has not been acquired is not dropped.
    rw [aborted, run_bind_abort aborted']
    exact ⟨inside, rfl, fun impossible => absurd rfl impossible⟩

end Program

end Interaction
