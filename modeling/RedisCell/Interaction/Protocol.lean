import RedisCell.Interaction.Pool

/-! Calls that keep to a protocol, and what their environment keeps true while they interleave. -/

namespace Interaction

/-- What a program may ask in each phase, and the phase that each answer leads to. -/
structure Protocol (Op : Type) (Ans : Op → Type) (φ : Type) where
  Permits : φ → Op → Prop
  advance : φ → (op : Op) → Ans op → φ

section Obeys

variable {Op : Type} {Ans : Op → Type} {α φ : Type}

/-- Whatever it is answered, a program asks only what its phase permits. -/
def Program.Obeys (protocol : Protocol Op Ans φ) : φ → Program Op Ans α → Prop
  | _, .ret _ => True
  | _, .abort => True
  | phase, .ask op next => protocol.Permits phase op ∧
    ∀ answer, (next answer).Obeys protocol (protocol.advance phase op answer)

end Obeys

namespace Pool

variable {ι Op : Type} {Ans : Op → Type} {α κ σ φ : Type} [DecidableEq ι]

/-- The operation that a call asks next, unless it has ended. -/
def asks (pool : Pool ι Op Ans α κ σ) (caller : ι) : Option Op :=
  match pool.programs caller with
  | .ask op _ => some op
  | _ => none

/-- Every operation of a schedule meets a condition on the state it is asked in. -/
def Meets (handle : κ → Handler Op Ans σ) (condition : σ → κ → Op → Prop) :
    Pool ι Op Ans α κ σ → List (ι × κ) → Prop
  | _, [] => True
  | pool, turn :: rest =>
    (∀ op, pool.asks turn.1 = some op → condition pool.state turn.2 op) ∧
      Meets handle condition (pool.step handle turn) rest

/-- A turn whose operation is known meets what this operation does. -/
theorem meets_cons {handle : κ → Handler Op Ans σ} {condition : σ → κ → Op → Prop}
    {pool : Pool ι Op Ans α κ σ} {turn : ι × κ} {rest : List (ι × κ)} {op : Op}
    (asked : pool.asks turn.1 = some op) (met : condition pool.state turn.2 op)
    (meets : (pool.step handle turn).Meets handle condition rest) :
    pool.Meets handle condition (turn :: rest) := by
  -- A caller asks one operation at a time.
  refine ⟨fun other asks => ?_, meets⟩
  rw [asked] at asks
  cases asks
  exact met

/--
What calls rely on and what they keep: while every choice comes after the earlier ones and every
operation meets its condition, permitted operations keep the invariant of the state.
-/
structure Rule (handle : κ → Handler Op Ans σ) (protocol : Protocol Op Ans φ)
    (condition : σ → κ → Op → Prop) (After : κ → κ → Prop) where
  /-- A phase that a call may be in when a choice is the latest one. -/
  Sound : φ → κ → Prop
  Invariant : σ → Prop
  later : ∀ {phase latest now}, Sound phase latest → After latest now → Sound phase now
  answered : ∀ {phase now op state answer state'}, Sound phase now →
    handle now op state = (some answer, state') → Sound (protocol.advance phase op answer) now
  kept : ∀ {phase now op state}, Invariant state → Sound phase now → protocol.Permits phase op →
    condition state now op → Invariant (handle now op state).2

namespace Rule

variable {handle : κ → Handler Op Ans σ} {protocol : Protocol Op Ans φ}
  {condition : σ → κ → Op → Prop} {After : κ → κ → Prop}

/-- The state keeps its invariant, and every call obeys the protocol from a sound phase on. -/
structure Governs (rule : Rule handle protocol condition After) (latest : κ)
    (pool : Pool ι Op Ans α κ σ) : Prop where
  state : rule.Invariant pool.state
  calls : ∀ caller, ∃ phase, rule.Sound phase latest ∧
    (pool.programs caller).Obeys protocol phase

variable {rule : Rule handle protocol condition After} {latest now : κ}
  {pool : Pool ι Op Ans α κ σ} {caller : ι}

/-- A rule governs a pool across every operation. -/
theorem Governs.step (governs : rule.Governs latest pool) (after : After latest now)
    (meets : ∀ op, pool.asks caller = some op → condition pool.state now op) :
    rule.Governs now (pool.step handle (caller, now)) := by
  -- Waiting for the turn changes no phase.
  have waited : ∀ other, ∃ phase, rule.Sound phase now ∧
      (pool.programs other).Obeys protocol phase := by
    intro other
    obtain ⟨phase, sound, obeys⟩ := governs.calls other
    exact ⟨phase, rule.later sound after, obeys⟩
  unfold Pool.step
  cases asks : pool.programs caller with
  | ret value => exact ⟨governs.state, waited⟩
  | abort => exact ⟨governs.state, waited⟩
  | ask op next =>
    obtain ⟨phase, sound, obeys⟩ := waited caller
    rw [asks] at obeys
    have asked : pool.asks caller = some op := by rw [Pool.asks, asks]
    have kept := rule.kept governs.state sound obeys.1 (meets op asked)
    refine ⟨kept, fun other => ?_⟩
    by_cases same : other = caller
    · -- The caller goes on in the phase that its answer leads to.
      subst same
      rw [advance_programs_self]
      cases answered : handle now op pool.state with
      | mk answer state' =>
        cases answer with
        | none => exact ⟨phase, sound, trivial⟩
        | some answer => exact ⟨_, rule.answered sound answered, obeys.2 answer⟩
    · rw [advance_programs_of_ne same]
      exact waited other

/-- A rule governs a pool across every schedule that meets its condition. -/
theorem Governs.execute {schedule : List (ι × κ)} (governs : rule.Governs latest pool)
    (ordered : (latest :: schedule.map Prod.snd).Pairwise After)
    (meets : pool.Meets handle condition schedule) :
    rule.Invariant (pool.execute handle schedule).state := by
  -- One operation after another is governed from the latest choice on.
  induction schedule generalizing pool latest with
  | nil => exact governs.state
  | cons turn rest ih =>
    obtain ⟨after, ordered⟩ := List.pairwise_cons.mp ordered
    obtain ⟨condition, meets⟩ := meets
    exact ih (governs.step (after turn.2 List.mem_cons_self) condition) ordered meets

end Rule

end Pool

end Interaction
