import RedisCell.Interaction.Contract
import Mathlib.Data.Multiset.AddSub

/-! Handles that a program acquires and releases: what it holds, whatever its environment answers. -/

namespace Interaction

/-- What operations do to handles: those they touch, those they release, and those they hand out. -/
structure Ownership (Op : Type) (Ans : Op → Type) (η : Type) where
  touches : Op → List η
  releases : Op → List η
  acquires : (op : Op) → Ans op → List η

variable {Op : Type} {Ans : Op → Type} {η α β ρ ε σ : Type} [DecidableEq η]

namespace Ownership

variable (own : Ownership Op Ans η)

/-- An operation touches and releases only what is held. -/
structure Allows (held : Multiset η) (op : Op) : Prop where
  touches : ∀ handle ∈ own.touches op, handle ∈ held
  releases : ↑(own.releases op) ≤ held

/-- What is held after an operation has been answered, where a handle is held once for each time. -/
def after (held : Multiset η) (op : Op) (answer : Ans op) : Multiset η :=
  held - ↑(own.releases op) + ↑(own.acquires op answer)

/-- What is held is the phase: only that may be used, and anything may be handed out. -/
def contract : Contract Op Ans (Multiset η) := ⟨own.Allows, fun _ _ _ => True, own.after⟩

/-- The contract of a discipline moves its state as the discipline does. -/
@[simp] theorem contract_after : own.contract.after = own.after := rfl

/-- The exchanges of a run touch and release only what is held, and leave these handles. -/
abbrev Ledger : Multiset η → List ((op : Op) × Ans op) → Multiset η → Prop := own.contract.Kept

/-- The handles that the exchanges of a run release, in order. -/
def released (exchanges : List ((op : Op) × Ans op)) : List η :=
  exchanges.flatMap fun exchange => own.releases exchange.1

/-- The handles that the exchanges of a run hand out, in order. -/
def acquired (exchanges : List ((op : Op) × Ans op)) : List η :=
  exchanges.flatMap fun exchange => own.acquires exchange.1 exchange.2

variable {own} {held left : Multiset η}

/-- Over a run a handle is released as often as it is handed out, but for being held at either end. -/
theorem balanced {exchanges : List ((op : Op) × Ans op)}
    (ledger : own.Ledger held exchanges left) (handle : η) :
    (own.released exchanges).count handle + left.count handle =
      (own.acquired exchanges).count handle + held.count handle := by
  -- What the first exchange changes is what the others start from.
  induction ledger with
  | nil held => rfl
  | @cons held left op answer others allowed _ ih =>
    -- What is released was held, so nothing is lost in taking it away.
    have had := Multiset.le_iff_count.mp allowed.releases handle
    simp only [contract_after, after, Multiset.count_add, Multiset.count_sub,
      Multiset.coe_count] at ih had
    simp only [released, acquired, List.flatMap_cons, List.count_append] at ih ⊢
    omega

end Ownership

namespace Program

variable {own : Ownership Op Ans η} {held left : Multiset η}

/--
Whatever it is answered, a program touches and releases only what it holds, and when it returns its
value and the handles it holds then satisfy the postcondition.
-/
abbrev Owns (own : Ownership Op Ans η) (post : α → Multiset η → Prop) :
    Multiset η → Program Op Ans α → Prop :=
  Conforms own.contract post

/-- A program holds in the end what it has held in the beginning. -/
def Neutral (own : Ownership Op Ans η) (held : Multiset η) (program : Program Op Ans α) : Prop :=
  program.Owns own (fun _ left => left = held) held

/-- An operation that releases nothing adds what it hands out. -/
theorem owns_acquire {op : Op} (touches : ∀ handle ∈ own.touches op, handle ∈ held)
    (keeps : own.releases op = []) :
    (lift op : Program Op Ans (Ans op)).Owns own
      (fun answer left => left = held + ↑(own.acquires op answer)) held := by
  -- Nothing is given back, so what is acquired comes on top.
  refine conforms_lift ⟨touches, ?_⟩ fun answer _ => ?_
  · rw [keeps]
    exact Multiset.zero_le held
  · simp [Ownership.after, keeps]

/-- An operation may release what has been added, and leaves the rest. -/
theorem owns_release {op : Op} (adds : left = held + ↑(own.releases op))
    (touches : ∀ handle ∈ own.touches op, handle ∈ left)
    (gives : ∀ answer, own.acquires op answer = []) :
    (lift op : Program Op Ans (Ans op)).Owns own (fun _ last => last = held) left := by
  -- What is given back is what had been added to the rest.
  refine conforms_lift ⟨touches, ?_⟩ fun answer _ => ?_
  · rw [adds]
    exact Multiset.le_add_left _ _
  · show left - _ + ↑(own.acquires op answer) = held
    rw [adds, gives answer, Multiset.add_sub_cancel_right]
    exact Multiset.add_zero held

/-- An operation that neither releases nor hands out anything is neutral. -/
theorem Neutral.lift {op : Op} (touches : ∀ handle ∈ own.touches op, handle ∈ held)
    (keeps : own.releases op = []) (gives : ∀ answer, own.acquires op answer = []) :
    (lift op : Program Op Ans (Ans op)).Neutral own held :=
  -- Nothing is added to what was held.
  (owns_acquire touches keeps).mono fun answer _ same => by
    rw [same, gives answer]
    exact Multiset.add_zero held

/-- A sequence of neutral parts is neutral. -/
theorem Neutral.bind {program : Program Op Ans α} {next : α → Program Op Ans β}
    (first : program.Neutral own held) (rest : ∀ value, (next value).Neutral own held) :
    (program >>= next).Neutral own held :=
  Conforms.bind first fun value _ same => same ▸ rest value

/-- A program is neutral when every operation is carried out by a neutral one. -/
theorem Neutral.translate {Op' : Type} {Ans' : Op' → Type} {own : Ownership Op' Ans' η}
    {impl : (op : Op) → Program Op' Ans' (Ans op)} (neutral : ∀ op, (impl op).Neutral own held)
    (program : Program Op Ans α) : (program.translate impl).Neutral own held := by
  -- Each operation gives back what it acquires, so all of them do.
  induction program with
  | ret value => rfl
  | abort => trivial
  | ask op next ih => exact (neutral op).bind ih

/--
Acquire a resource, use it, and drop it when its scope ends, with a value or with an error.
-/
def inScope (acquire : Program Op Ans ρ) (drop : ρ → Program Op Ans Unit)
    (body : ρ → ExceptT ε (Program Op Ans) α) : ExceptT ε (Program Op Ans) α := ExceptT.mk do
  let resource ← acquire
  let result ← (body resource).run
  drop resource
  return result

/-- A scope is neutral when its body keeps what its resource holds, and the drop releases that. -/
theorem Neutral.inScope {acquire : Program Op Ans ρ} {drop : ρ → Program Op Ans Unit}
    {body : ρ → ExceptT ε (Program Op Ans) α} {holds : ρ → Multiset η → Prop}
    (opens : acquire.Owns own holds held)
    (keeps : ∀ resource left, holds resource left → (body resource).run.Neutral own left)
    (closes : ∀ resource left, holds resource left →
      (drop resource).Owns own (fun _ last => last = held) left) :
    (inScope acquire drop body).run.Neutral own held := by
  -- The body leaves what it was given, and the end of the scope gives back the rest.
  refine Conforms.bind opens fun resource left inside => ?_
  refine Conforms.bind (keeps resource left inside) fun result last same => ?_
  subst same
  exact Conforms.bind (closes resource last inside) fun _ _ back => back

section Fallible

variable {program : ExceptT ε (Program Op Ans) α} {next : α → ExceptT ε (Program Op Ans) β}

/-- A fallible sequence of neutral parts is neutral, wherever it ends. -/
theorem Neutral.except_bind (first : program.run.Neutral own held)
    (rest : ∀ value, (next value).run.Neutral own held) :
    (program >>= next).run.Neutral own held := by
  -- An error ends the sequence with what was held before it.
  rw [ExceptT.run_bind]
  refine first.bind fun result => ?_
  cases result with
  | error error => rfl
  | ok value => exact rest value

end Fallible

/--
The run of a neutral program keeps to its ledger, and once it has returned it holds what it has held
before, and has released each handle as often as it was handed out.
-/
theorem Neutral.gives_back {program : Program Op Ans α} (neutral : program.Neutral own held)
    (handle : Handler Op Ans σ) (state : σ) :
    ∃ left, own.Ledger held (program.exchanges handle state) left ∧
      ∀ value, (program.run handle state).1 = some value → left = held ∧ ∀ handle',
        (own.released (program.exchanges handle state)).count handle' =
          (own.acquired (program.exchanges handle state)).count handle' := by
  -- No answer breaks the contract.
  have honest : own.contract.Honest held (program.exchanges handle state) :=
    Contract.honest_of_invariant (fun _ _ => True) (fun _ _ _ _ _ _ _ => ⟨trivial, trivial⟩) program
      trivial
  obtain ⟨left, ledger, returns⟩ := neutral.kept handle state honest
  refine ⟨left, ledger, fun value returned => ?_⟩
  have same := returns value returned
  refine ⟨same, fun handle' => ?_⟩
  -- What is held is the same at both ends of the run.
  have balanced := Ownership.balanced ledger handle'
  rw [same] at balanced
  omega

end Program

end Interaction
