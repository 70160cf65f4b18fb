import RedisCell.Interaction.Ownership
import Mathlib.Algebra.Ring.Nat

/-! Credits: what a program may still spend on its operations, whatever it is answered. -/

namespace Interaction

/-- What an operation takes in advance, and what its answer gives back. -/
structure Tariff (Op : Type) (Ans : Op → Type) where
  advance : Op → Nat
  refund : (op : Op) → Ans op → Nat

variable {Op Op' : Type} {Ans : Op → Type} {Ans' : Op' → Type} {α β ε ρ σ : Type}

/-- Every operation has a price, of which nothing is given back. -/
def Tariff.flat (price : Op → Nat) : Tariff Op Ans := ⟨price, fun _ _ => 0⟩

/-- An operation may be asked while its advance is left. -/
def Contract.credits (tariff : Tariff Op Ans) : Contract Op Ans Nat where
  Requires left op := tariff.advance op ≤ left
  Ensures _ _ _ := True
  after left op answer := left - tariff.advance op + tariff.refund op answer

namespace Program

/-- A program that gets by on its credits, and leaves so many of them when it returns a value. -/
abbrev Spends (tariff : Tariff Op Ans) (rest : α → Nat) (credits : Nat)
    (program : Program Op Ans α) : Prop :=
  program.Conforms (Contract.credits tariff) (fun value left => rest value ≤ left) credits

variable {tariff : Tariff Op Ans} {program : Program Op Ans α} {rest : α → Nat} {credits : Nat}

/-- Credits that are added to those of a program are left when it returns. -/
theorem Spends.frame (spends : program.Spends tariff rest credits) (extra : Nat) :
    program.Spends tariff (fun value => rest value + extra) (credits + extra) := by
  -- The induction follows the program, which never looks at the extra credits.
  induction program generalizing credits with
  | ret value => exact Nat.add_le_add_right spends extra
  | abort => trivial
  | ask op next ih =>
    have enough : tariff.advance op ≤ credits := spends.1
    refine ⟨Nat.le_add_right_of_le enough, fun answer _ => ?_⟩
    -- The extra credits are untouched by the advance, and by what is given back of it.
    have shifted : (Contract.credits tariff).after (credits + extra) op answer =
        (Contract.credits tariff).after credits op answer + extra := by
      simp only [Contract.credits]
      omega
    rw [shifted]
    exact ih answer (spends.2 answer trivial)

/-- A program that gets by on few credits does so on more of them. -/
theorem Spends.more (spends : program.Spends tariff rest credits) {more : Nat}
    (enough : credits ≤ more) : program.Spends tariff rest more := by
  -- The additional credits are framed, and may be left over.
  rw [← Nat.add_sub_cancel' enough]
  exact (spends.frame (more - credits)).mono fun value left kept =>
    Nat.le_trans (Nat.le_add_right _ _) kept

/-- In a sequence the second part starts from what the first one leaves. -/
theorem Spends.bind {next : α → Program Op Ans β} {out : β → Nat}
    (first : program.Spends tariff rest credits)
    (others : ∀ value, (next value).Spends tariff out (rest value)) :
    (program >>= next).Spends tariff out credits :=
  Conforms.bind first fun value _ enough => (others value).more enough

/-- One operation takes its advance, and leaves the others to what follows. -/
theorem spends_lift {op : Op} {rest : Ans op → Nat} (enough : tariff.advance op ≤ credits)
    (leaves : ∀ answer, rest answer ≤ credits - tariff.advance op + tariff.refund op answer) :
    (lift op).Spends tariff rest credits :=
  ⟨enough, fun answer _ => leaves answer⟩

/--
A program gets by on the same credits when each operation is carried out by a program that gets by
on its advance and leaves what is given back of it.
-/
theorem Spends.translate {outer : Tariff Op' Ans'} {impl : (op : Op) → Program Op' Ans' (Ans op)}
    (carries : ∀ op, (impl op).Spends outer (tariff.refund op) (tariff.advance op))
    (spends : program.Spends tariff rest credits) :
    (program.translate impl).Spends outer rest credits := by
  refine (Conforms.translate (· ≤ ·) (fun left held op enough required => ?_) spends
    (Nat.le_refl credits)).mono fun value last reached => ?_
  · -- The implementation runs on the advance, and what is held beside it stays.
    have advance : tariff.advance op ≤ left := required
    have framed := (carries op).frame (held - tariff.advance op)
    rw [Nat.add_sub_cancel' (Nat.le_trans advance enough)] at framed
    refine framed.mono fun answer last kept => ⟨trivial, ?_⟩
    have left' : tariff.refund op answer + (held - tariff.advance op) ≤ last := kept
    simp only [Contract.credits]
    omega
  · obtain ⟨left, kept, below⟩ := reached
    exact Nat.le_trans kept below

/-- What a program asks is worth no more than its credits. -/
theorem Spends.asked_le {price : Op → Nat} (spends : program.Spends (.flat price) rest credits)
    (handle : Handler Op Ans σ) (state : σ) :
    ((program.asked handle state).map price).sum ≤ credits := by
  -- The induction follows the program, whose credits pay for each question.
  induction program generalizing credits state with
  | ret value => exact Nat.zero_le _
  | abort => exact Nat.zero_le _
  | ask op next ih =>
    have enough : price op ≤ credits := spends.1
    simp only [asked]
    cases handle op state with
    | mk answer state' =>
      cases answer with
      | none => simpa using enough
      | some answer =>
        -- The others are paid for from what the first one leaves.
        have others : ((next answer).asked handle state' |>.map price).sum ≤ credits - price op :=
          ih answer (spends.2 answer trivial) state'
        simp only [List.map_cons, List.sum_cons]
        omega

section Fallible

/-- A fallible sequence pays for its second part only where its first one has succeeded. -/
theorem Spends.except_bind {program : ExceptT ε (Program Op Ans) α}
    {next : α → ExceptT ε (Program Op Ans) β} {middle : Except ε α → Nat}
    {out : Except ε β → Nat} (first : program.run.Spends tariff middle credits)
    (errors : ∀ error, out (.error error) ≤ middle (.error error))
    (others : ∀ value, (next value).run.Spends tariff out (middle (.ok value))) :
    (program >>= next).run.Spends tariff out credits :=
  -- An error leaves all that the second part would have cost.
  Conforms.except_bind first (fun error _ enough => Nat.le_trans (errors error) enough)
    fun value _ enough => (others value).more enough

/-- A scope pays for its resource, then for its body, and for the drop of the resource at last. -/
theorem Spends.inScope {acquire : Program Op Ans ρ} {drop : ρ → Program Op Ans Unit}
    {body : ρ → ExceptT ε (Program Op Ans) α} {out : Except ε α → Nat} (middle last : Nat)
    (opens : acquire.Spends tariff (fun _ => middle) credits)
    (uses : ∀ resource, (body resource).run.Spends tariff (fun result => out result + last) middle)
    (closes : ∀ resource, (drop resource).Spends tariff (fun _ => 0) last) :
    (inScope acquire drop body).run.Spends tariff out credits := by
  -- The credits for the drop are kept through the body.
  refine opens.bind fun resource => (uses resource).bind fun result => ?_
  rw [Nat.add_comm]
  exact ((closes resource).frame (out result)).bind fun _ => Nat.le_add_left _ _

end Fallible

end Program

end Interaction
