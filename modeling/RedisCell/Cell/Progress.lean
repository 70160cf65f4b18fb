import RedisCell.Cell.Contention
import RedisCell.Interaction.Rivalry
import Mathlib.Data.Fintype.Card

/-! Concurrent calls lose an update only to another one, so some call always gets through. -/

namespace RedisCell

open Interaction RateLimiter

namespace MemoryStore

/-- An update that replaces the value of its key, or does nothing because it expected another one. -/
def Replaces (store : MemoryStore) (key : String) (expected : Option UInt64)
    (outcome : Except CellError Bool × MemoryStore) : Prop :=
  (∃ value, outcome = (.ok true, store.insert key value)) ∨
    outcome = (.ok false, store) ∧ store.map key ≠ expected

/-- Setting a key replaces its absence, or changes nothing. -/
theorem setIfNotExists_replaces (store : MemoryStore) (key : String) (value : UInt64) :
    store.Replaces key none (store.setIfNotExistsWithTtl key value) := by
  -- What the key held decides.
  cases stored : store.map key with
  | none => exact Or.inl ⟨value, setIfNotExists_absent stored value⟩
  | some other => exact Or.inr ⟨by simp [setIfNotExistsWithTtl, stored], by simp [stored]⟩

/-- Swapping a value replaces the old one, or changes nothing. -/
theorem compareAndSwap_replaces (store : MemoryStore) (key : String) (old new : UInt64) :
    store.Replaces key (some old) (store.compareAndSwapWithTtl key old new) := by
  -- Only another value than the expected one keeps the key from being swapped.
  by_cases different : ∃ n, store.map key = some n ∧ n ≠ old
  · refine Or.inr ⟨if_pos different, ?_⟩
    obtain ⟨value, stored, other⟩ := different
    simpa [stored] using other
  · exact Or.inl ⟨new, if_neg different⟩

end MemoryStore

namespace Call

/-- What a call goes on with after losing an update, when it may still retry so many. -/
def retry (call : Call) : Nat → StoreM Settled
  | 0 => throw contention
  | left + 1 => call.limiter.attempts call.key call.increment left

/-- A loop is one pass, and its retry. -/
theorem attempts_eq (call : Call) (left : Nat) :
    call.limiter.attempts call.key call.increment left =
      call.limiter.iteration call.key call.increment (call.retry left) := by
  -- Only what a pass retries with depends on the attempts that are left.
  cases left with
  | zero => rfl
  | succ left => rfl

/-- A call has charged its key. -/
def charged (value : Except CellError (Bool × RateLimitResult)) : Bool :=
  MemoryStore.Outcome.admitted (some value)

/--
What is left of a call whose rivals have won so many updates: it has lost no more than they have won,
and it can lose the one that it is about to make only to one more win.
-/
inductive Attempt (call : Call) (store : MemoryStore) (wins : Nat) :
    Program StoreOp StoreOp.Answer (Except CellError (Bool × RateLimitResult)) → Prop where
  | reading {program} (left : Nat)
      (asks : program = call.finish (call.limiter.iteration call.key call.increment (call.retry left)))
      (lost : maxCasAttempts ≤ left + wins) : call.Attempt store wins program
  | updating {program} (left : Nat) (tatVal : Option UInt64) (now : OffsetDateTime)
      (asks : program = call.finish (call.updating tatVal now (call.retry left)))
      (lost : maxCasAttempts ≤ left + wins)
      (stale : store.map call.key ≠ tatVal → maxCasAttempts + 1 ≤ left + wins) :
      call.Attempt store wins program
  | ended {program} (value : Except CellError (Bool × RateLimitResult))
      (returns : program = .ret value)
      (contended : value = .error contention → maxCasAttempts + 1 ≤ wins) :
      call.Attempt store wins program

section Attempt

variable {call : Call} {store store' : MemoryStore} {wins wins' left : Nat}
  {program : Program StoreOp StoreOp.Answer (Except CellError (Bool × RateLimitResult))}

/-- A whole call is about to read, or fails at once for want of a rate. -/
theorem attempt_program (call : Call) (store : MemoryStore) (wins : Nat) :
    call.Attempt store wins call.program := by
  by_cases zero : call.limiter.emissionInterval.nanos = 0
  · -- A limiter of no rate fails, though not for contention.
    refine .ended _ (program_zero zero) fun same => ?_
    have different : CellError.generic "Zero rates are not supported" ≠ contention := by decide
    exact absurd (Except.error.inj same) different
  · -- Any other has all of its attempts before it.
    refine .reading maxCasAttempts ?_ (Nat.le_add_right _ _)
    rw [program_eq zero, attempts_eq]

/-- A call that has lost an update retries, or has lost to as many wins as it takes to give up. -/
theorem attempt_retry (lost : maxCasAttempts + 1 ≤ left + wins) :
    call.Attempt store wins (call.finish (call.retry left)) := by
  cases left with
  -- No attempt is left, so every one has been lost to a rival.
  | zero => exact .ended (.error contention) rfl fun _ => by omega
  -- The next attempt starts with a read.
  | succ left =>
    refine .reading left ?_ (by omega)
    rw [retry, attempts_eq]

/-- A value that has been replaced is one more win, and a value that was not is what it was. -/
theorem Attempt.outlasts (attempt : call.Attempt store wins program)
    (counted : store'.map call.key = store.map call.key ∨ wins + 1 ≤ wins') (grown : wins ≤ wins') :
    call.Attempt store' wins' program := by
  cases attempt with
  -- What is still to be read does not depend on the store.
  | reading left asks lost => exact .reading left asks (by omega)
  | updating left tatVal now asks lost stale =>
    refine .updating left tatVal now asks (by omega) fun changed => ?_
    -- A read that has gone stale did so before, or through the rival that has won now.
    rcases counted with same | won
    · have before := stale (same ▸ changed)
      omega
    · omega
  | ended value returns contended =>
    refine .ended value returns fun same => ?_
    have before := contended same
    omega

/-- An update leaves the store as it was, or charges the key and ends the call. -/
theorem attempt_updated {tatVal : Option UInt64} {outcome : Except CellError Bool × MemoryStore}
    (now : OffsetDateTime) (replaces : store.Replaces call.key tatVal outcome)
    (stale : store.map call.key ≠ tatVal → maxCasAttempts + 1 ≤ left + wins) :
    let program := call.updated tatVal now (call.retry left) outcome.1
    (outcome.2 = store ∧ call.Attempt store wins program) ∨
      ∃ value result, outcome.2 = store.insert call.key value ∧
        program = .ret (.ok (false, result)) := by
  -- The update wins, or leaves the store and starts over.
  rcases replaces with ⟨value, rfl⟩ | ⟨rfl, changed⟩
  · exact Or.inr ⟨value, _, rfl, rfl⟩
  · exact Or.inl ⟨rfl, attempt_retry (stale changed)⟩

/-- An operation of a call leaves the store as it was, or charges the key and ends the call. -/
theorem Attempt.asks {op : StoreOp} {next} (attempt : call.Attempt store wins (.ask op next))
    (now : OffsetDateTime) :
    let program := (MemoryStore.handle now op store).1.elim .abort next
    let store' := (MemoryStore.handle now op store).2
    (store' = store ∧ call.Attempt store wins program) ∨
      ∃ value result, store' = store.insert call.key value ∧ program = .ret (.ok (false, result)) := by
  -- A call asks for a read, for an update, or for nothing more.
  cases attempt with
  | reading left asks lost =>
    rw [finish_iteration] at asks
    cases asks
    refine Or.inl ⟨rfl, ?_⟩
    -- What has just been read is what the key still holds.
    show call.Attempt store wins (call.finish (if _ then _ else _))
    by_cases blocks : call.limiter.Blocks call.increment (store.map call.key) now
    · rw [if_pos blocks]
      exact .ended _ rfl nofun
    · rw [if_neg blocks]
      exact .updating left _ now rfl lost fun changed => absurd rfl changed
  | updating left tatVal read asks lost stale =>
    cases tatVal with
    | none =>
      rw [finish_updating_none] at asks
      cases asks
      exact attempt_updated read (store.setIfNotExists_replaces _ _) stale
    | some old =>
      rw [finish_updating_some] at asks
      cases asks
      exact attempt_updated read (store.compareAndSwap_replaces _ _ _) stale
  | ended value returns => cases returns

/-- A call that has given up has seen as many wins as it takes. -/
theorem Attempt.contended (attempt : call.Attempt store wins (.ret (.error contention))) :
    maxCasAttempts + 1 ≤ wins := by
  -- A call that is still reading or updating has not returned.
  cases attempt with
  | reading left asks =>
    rw [finish_iteration] at asks
    cases asks
  | updating left tatVal now asks =>
    cases tatVal with
    | none =>
      rw [finish_updating_none] at asks
      cases asks
    | some old =>
      rw [finish_updating_some] at asks
      cases asks
  | ended value returns contended =>
    cases returns
    exact contended rfl

end Attempt

section Rivals

variable {ι : Type} [DecidableEq ι] {calls : ι → Call}

/-- Another call on the same key. -/
def rivals (calls : ι → Call) (caller rival : ι) : Bool :=
  caller ≠ rival ∧ (calls rival).key = (calls caller).key

/-- The operation of another call leaves a call its chances, unless it is the win of a rival. -/
theorem Attempt.beside {caller rival : ι} {store : MemoryStore} {wins wins' : Nat} {op : StoreOp}
    {program next} (attempt : (calls caller).Attempt store wins program) (different : caller ≠ rival)
    (beside : (calls rival).Attempt store wins' (.ask op next)) (now : OffsetDateTime) :
    (calls caller).Attempt (MemoryStore.handle now op store).2
      (wins + if rivals calls caller rival ∧
        ((MemoryStore.handle now op store).1.elim .abort next).result.any charged then 1 else 0)
      program := by
  -- The other call leaves the store, or charges its own key.
  rcases beside.asks now with ⟨same, _⟩ | ⟨value, result, inserted, ends⟩
  · exact attempt.outlasts (Or.inl (by rw [same])) (Nat.le_add_right _ _)
  rw [inserted, ends]
  have wins : (Program.ret (.ok (false, result)) :
      Program StoreOp StoreOp.Answer _).result.any charged = true := rfl
  by_cases sameKey : (calls rival).key = (calls caller).key
  · exact attempt.outlasts (Or.inr (by simp [rivals, different, sameKey, wins]))
      (Nat.le_add_right _ _)
  · -- A charge of another key changes nothing that this call has read.
    exact attempt.outlasts (Or.inl (MemoryStore.insert_of_ne _ _ (Ne.symm sameKey)))
      (Nat.le_add_right _ _)

/-- Calls on one key are rivals, and lose an update only to each other. -/
def rivalry (calls : ι → Call) :
    Pool.Rivalry MemoryStore.handle (fun caller => (calls caller).program) (rivals calls)
      charged where
  Knows caller program store wins := (calls caller).Attempt store wins program
  apart caller := by simp [rivals]
  initial caller store := attempt_program (calls caller) store 0
  own now attempt := by
    rcases attempt.asks now with ⟨same, goes⟩ | ⟨value, result, _, ends⟩
    · rw [same]
      exact goes
    · rw [ends]
      exact .ended _ rfl nofun
  other now different attempt beside := attempt.beside different beside now

variable {store : MemoryStore} {schedule : List (ι × OffsetDateTime)} {caller : ι}

/-- A pool of calls over one memory store, after a schedule. -/
def pool (calls : ι → Call) (store : MemoryStore) (schedule : List (ι × OffsetDateTime)) :
    Pool ι StoreOp StoreOp.Answer (Except CellError (Bool × RateLimitResult)) OffsetDateTime
      MemoryStore :=
  (Pool.start (fun caller => (calls caller).program) store).execute MemoryStore.handle schedule

/-- A result that charges its key is one that was not limited. -/
theorem charged_iff {value : Except CellError (Bool × RateLimitResult)} :
    charged value = true ↔ ∃ result, value = .ok (false, result) := by
  apply Iff.intro
  · intro charges
    rcases value with error | ⟨limited, result⟩
    · cases charges
    · -- Only a call that is let through is charged.
      cases limited with
      | false => exact ⟨result, rfl⟩
      | true => cases charges
  · intro admits
    obtain ⟨result, rfl⟩ := admits
    rfl

/--
The rivals that a call has lost to are as many as it takes, and each of them was admitted after the
call had begun.
-/
theorem winners {early late : List (ι × OffsetDateTime)} (waiting : ∀ turn ∈ early, turn.1 ≠ caller)
    (failed : (pool calls store (early ++ late)).returned caller = some (.error contention)) :
    ∃ winners : List ι, winners.Nodup ∧ maxCasAttempts + 1 ≤ winners.length ∧
      ∀ winner ∈ winners, winner ≠ caller ∧ (calls winner).key = (calls caller).key ∧
        (pool calls store early).returned winner = none ∧ ∃ result,
          (pool calls store (early ++ late)).returned winner = some (.ok (false, result)) := by
  -- The call knows how many wins it has missed since it began, and it has given up for them.
  let before := pool calls store early
  let after := before.execute MemoryStore.handle late
  have whole : pool calls store (early ++ late) = after := List.foldl_append
  rw [whole] at failed ⊢
  have knows : (calls caller).Attempt after.state
      (after.wins (rivals calls) charged caller - before.wins (rivals calls) charged caller)
      (after.programs caller) := (rivalry calls).knows_since store early late waiting
  rw [Pool.programs_of_returned failed] at knows
  have many := knows.contended
  -- The wins that it counts are those of the calls that the later turns add to the order.
  obtain ⟨new, ordered, unsettled⟩ := Pool.execute_order MemoryStore.handle charged before late
  have distinct : (after.order charged).Nodup := (List.nodup_dedup _).filter _
  have all : after.order charged = before.order charged ++ new := ordered
  rw [Pool.wins, Pool.wins, all, List.filter_append, List.length_append, Nat.add_sub_cancel_left]
    at many
  rw [all] at distinct
  refine ⟨new.filter (rivals calls caller), distinct.of_append_right.filter _, many,
    fun winner member => ?_⟩
  obtain ⟨added, rival⟩ := List.mem_filter.mp member
  have settled := Pool.settled_of_mem_order (all ▸ List.mem_append_right _ added)
  rw [Option.any_eq_true] at settled
  obtain ⟨value, returns, charges⟩ := settled
  obtain ⟨result, rfl⟩ := charged_iff.mp charges
  simp only [rivals, decide_eq_true_eq] at rival
  exact ⟨rival.1.symm, rival.2, unsettled winner added, result, returns⟩

/--
A call gives up only when it was overtaken: at least one other call for each of its attempts is
admitted on the same key between any time at which it has not begun and any at which it has given up.
-/
theorem contention_overtaken (calls : ι → Call) (store : MemoryStore)
    (early late : List (ι × OffsetDateTime)) (caller : ι)
    (waiting : ∀ turn ∈ early, turn.1 ≠ caller)
    (failed : (pool calls store (early ++ late)).returned caller = some (.error contention)) :
    ∃ winners : List ι, winners.Nodup ∧ maxCasAttempts + 1 ≤ winners.length ∧
      ∀ winner ∈ winners, winner ≠ caller ∧ (calls winner).key = (calls caller).key ∧
        (pool calls store early).returned winner = none ∧ ∃ result,
          (pool calls store (early ++ late)).returned winner = some (.ok (false, result)) :=
  winners waiting failed

/--
No call gives up while there are no more calls on its key than a call has attempts: in whatever order
they interleave, each of them is limited or admitted.
-/
theorem few_never_contend (calls : ι → Call) (store : MemoryStore) (key : String)
    (few : ∀ callers : List ι, callers.Nodup → (∀ caller ∈ callers, (calls caller).key = key) →
      callers.length ≤ maxCasAttempts + 1)
    (schedule : List (ι × OffsetDateTime)) (caller : ι) (onKey : (calls caller).key = key) :
    (pool calls store schedule).returned caller ≠ some (.error contention) := by
  -- A call that gave up would have been overtaken by too many.
  intro failed
  have begins : ∀ turn ∈ ([] : List (ι × OffsetDateTime)), turn.1 ≠ caller := nofun
  obtain ⟨others, distinct, many, won⟩ := winners begins failed
  -- The call itself is one more on its key than those it has lost to.
  have counted := few (caller :: others)
    (List.nodup_cons.mpr ⟨fun member => (won caller member).1 rfl, distinct⟩)
    (List.forall_mem_cons.mpr ⟨onKey, fun other member => (won other member).2.1.trans onKey⟩)
  rw [List.length_cons] at counted
  omega

/-- One of eight calls begins after another one is done, and loses to each of the others in turn. -/
theorem contention_overtaken_readme :
    let call : Call := ⟨readmeQuota.limiter, "user123", 1⟩
    let early : List (Fin 8 × OffsetDateTime) := [(7, ⟨4⟩), (7, ⟨4⟩)]
    let late : List (Fin 8 × OffsetDateTime) :=
      ([0, 1, 1, 0, 0, 2, 2, 0, 0, 3, 3, 0, 0, 4, 4, 0, 0, 5, 5, 0, 0, 6, 6, 0] : List (Fin 8)).map
        fun caller => (caller, ⟨5⟩)
    ∃ winners : List (Fin 8), winners.Nodup ∧ maxCasAttempts + 1 ≤ winners.length ∧
      ∀ winner ∈ winners, winner ≠ 0 ∧ call.key = call.key ∧
        (pool (fun _ => call) MemoryStore.new early).returned winner = none ∧ ∃ result,
          (pool (fun _ => call) MemoryStore.new (early ++ late)).returned winner =
            some (.ok (false, result)) := by
  intro call early late
  -- Caller 7 is admitted before caller 0 starts, and is none of its winners.
  exact contention_overtaken (fun _ => call) MemoryStore.new early late 0 (by decide)
    (by decide +kernel)

/-- Two of six calls interleave. -/
theorem few_never_contend_readme :
    let call : Call := ⟨readmeQuota.limiter, "user123", 1⟩
    (pool (fun _ : Fin 6 => call) MemoryStore.new [(0, ⟨5⟩), (1, ⟨5⟩), (1, ⟨5⟩), (0, ⟨5⟩)]).returned
      0 ≠ some (.error contention) := by
  intro call
  refine few_never_contend (fun _ : Fin 6 => call) MemoryStore.new "user123" ?_ _ 0 rfl
  -- Six callers are too few to overtake one of themselves six times.
  intro callers distinct _
  exact List.Nodup.length_le_card distinct

end Rivals

end Call

end RedisCell
