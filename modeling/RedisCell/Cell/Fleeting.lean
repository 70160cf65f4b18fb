import RedisCell.Cell.StoreContract
import RedisCell.Cell.Linearizable
import RedisCell.Gcra.Alike

/-! Calls over a store whose keys may vanish at any moment once their time has passed. -/

namespace RedisCell

open Interaction Gcra RateLimiter

/-- What the world does before an operation: it moves the clock, and lets some keys vanish. -/
structure Moment where
  now : OffsetDateTime
  vanishing : String → Bool

/-- The clock never goes backwards. -/
def Advancing (moments : Nat → Moment) : Prop :=
  ∀ first second, first ≤ second → (moments first).now ≤ (moments second).now

namespace MemoryStore

/-- Drop the keys that vanish, as far as their time has passed. -/
def drop (store : MemoryStore) (moment : Moment) : MemoryStore :=
  ⟨fun key => (store.map key).filter fun value =>
    !(moment.vanishing key && decide ((value.toNat : Int) ≤ moment.now.nanos))⟩

/-- A store that agrees with another one, except for keys it has lost after their time. -/
def Shadows (clock : Int) (store kept : MemoryStore) : Prop :=
  ∀ key, store.map key = kept.map key ∨
    store.map key = none ∧ ∃ value, kept.map key = some value ∧ (value.toNat : Int) ≤ clock

section Shadows

variable {clock later : Int} {store kept : MemoryStore} {key : String} {moment : Moment}

/-- A store shadows itself. -/
theorem Shadows.refl (clock : Int) (store : MemoryStore) : Shadows clock store store :=
  fun _ => Or.inl rfl

/-- A store that shadows another at one clock does so at every later one. -/
theorem Shadows.mono (shadows : Shadows clock store kept) (reached : clock ≤ later) :
    Shadows later store kept := by
  -- A time that has passed stays in the past.
  intro key
  rcases shadows key with same | ⟨lost, value, stored, past⟩
  · exact Or.inl same
  · exact Or.inr ⟨lost, value, stored, past.trans reached⟩

/-- A key that is dropped has vanished, and any other one is as it was. -/
theorem drop_cases (store : MemoryStore) (moment : Moment) (key : String) :
    (store.drop moment).map key = store.map key ∨
      (store.drop moment).map key = none ∧
        ∃ value, store.map key = some value ∧ (value.toNat : Int) ≤ moment.now.nanos := by
  -- A key survives when it does not vanish, or when its time lies ahead.
  cases stored : store.map key with
  | none => exact Or.inl (by simp [drop, stored])
  | some value =>
    by_cases past : (value.toNat : Int) ≤ moment.now.nanos
    · cases vanishes : moment.vanishing key with
      | true => exact Or.inr ⟨by simp [drop, stored, vanishes, past], value, rfl, past⟩
      | false => exact Or.inl (by simp [drop, stored, vanishes])
    · exact Or.inl (by simp [drop, stored, past])

/-- An absent key stays absent. -/
theorem drop_absent (absent : store.map key = none) : (store.drop moment).map key = none := by
  simp [drop, absent]

/-- Dropping keys after their time keeps a shadow. -/
theorem Shadows.drop (shadows : Shadows clock store kept) (reached : clock ≤ moment.now.nanos) :
    Shadows moment.now.nanos (store.drop moment) kept := by
  -- The key stays, or vanishes once its time has passed.
  intro key
  rcases drop_cases store moment key with same | ⟨lost, value, stored, past⟩
  · rw [same]
    exact shadows.mono reached key
  · -- A key that vanishes now was still in both stores, or had been lost already.
    rcases shadows key with equal | ⟨absent, _⟩
    · exact Or.inr ⟨lost, value, equal ▸ stored, past⟩
    · rw [absent] at stored
      cases stored

/-- The same write keeps a shadow. -/
theorem Shadows.insert (shadows : Shadows clock store kept) (key : String) (value : UInt64) :
    Shadows clock (store.insert key value) (kept.insert key value) := by
  -- The written key agrees again, and every other one is as it was.
  intro other
  by_cases same : other = key
  · left
    rw [same, insert_self, insert_self]
  · rw [insert_of_ne store value same, insert_of_ne kept value same]
    exact shadows other

/-- A shadow is due at the same instants, from its clock on. -/
theorem Shadows.alike (shadows : Shadows clock store kept) (key : String) :
    Alike clock (store.tat key) (kept.tat key) := by
  -- The key is equal in both stores, or it was lost after its time.
  rcases shadows key with same | ⟨lost, value, stored, past⟩
  · rw [tat, tat, same]
    exact Alike.refl _ _
  · -- A lost time lies in the past, where it counts as none.
    rw [tat, tat, lost, stored]
    exact alike_none_of_past (max_eq_left past)

end Shadows

end MemoryStore

/-- A store that loses keys, with a count of its operations, its clock, and the clocks of its reads. -/
structure Fleeting where
  store : MemoryStore
  tick : Nat
  /-- The clock at the last operation. -/
  clock : OffsetDateTime
  /-- The clocks at the reads so far, the last one first. -/
  reads : List OffsetDateTime

namespace Fleeting

/-- Record an operation, which may be a read, and the store it leaves. -/
def next (moments : Nat → Moment) (state : Fleeting) (isGet : Bool) (store : MemoryStore) :
    Fleeting where
  store := store
  tick := state.tick + 1
  clock := (moments state.tick).now
  reads := if isGet then (moments state.tick).now :: state.reads else state.reads

/-- Answer one operation at the next moment, after the keys that vanish then. -/
def handle (moments : Nat → Moment) : Handler StoreOp StoreOp.Answer Fleeting :=
  fun op state =>
    let moment := moments state.tick
    let (answer, store) := MemoryStore.handleStrict moment.now op (state.store.drop moment)
    (answer, state.next moments op.isGet store)

/-- A state that shadows the store that keeps every key, and whose clock has not run ahead. -/
structure InStep (moments : Nat → Moment) (state : Fleeting) (kept : MemoryStore) : Prop where
  shadows : state.store.Shadows state.clock.nanos kept
  notAhead : state.clock.nanos ≤ (moments state.tick).now.nanos

variable {moments : Nat → Moment} {state : Fleeting} {kept : MemoryStore} {call : Call}

/-- A store that has not been used yet. -/
def start (moments : Nat → Moment) (store : MemoryStore) : Fleeting :=
  ⟨store, 0, (moments 0).now, []⟩

/-- At the start both stores are in step. -/
theorem start_inStep (moments : Nat → Moment) (store : MemoryStore) :
    InStep moments (start moments store) store :=
  ⟨MemoryStore.Shadows.refl _ store, le_rfl⟩

/-- Keys that vanish at the next moment leave a shadow. -/
theorem InStep.drop (step : InStep moments state kept) :
    (state.store.drop (moments state.tick)).Shadows (moments state.tick).now.nanos kept :=
  step.shadows.drop step.notAhead

/-- An operation that leaves a shadow keeps in step. -/
theorem inStep_next (ordered : Advancing moments) {isGet : Bool}
    {store : MemoryStore} (shadows : store.Shadows (moments state.tick).now.nanos kept) :
    InStep moments (state.next moments isGet store) kept :=
  ⟨shadows, ordered _ _ (Nat.le_succ state.tick)⟩

/-- An update of a key that was absent already sets it, and ends its call. -/
theorem run_updating_absent (absent : state.store.map call.key = none) (now : OffsetDateTime)
    (retry : StoreM Settled) :
    (call.finish (call.updating none now retry)).run (handle moments) state =
      (some (.ok (call.limiter.report (granted call.increment none now))),
        state.next moments false ((state.store.drop (moments state.tick)).insert call.key
          (nanoseconds (newTat call.increment none now)))) := by
  -- Nothing but this call could bring the key back.
  have gone : (state.store.drop (moments state.tick)).map call.key = none :=
    MemoryStore.drop_absent absent
  have answered : ∀ value ttl, handle moments (.setIfNotExistsWithTtl call.key value ttl) state =
      (some (.ok true), state.next moments false
        ((state.store.drop (moments state.tick)).insert call.key value)) := by
    intro value ttl
    simp only [handle, MemoryStore.handleStrict, MemoryStore.handle,
      MemoryStore.setIfNotExists_absent gone]
    rfl
  rw [Call.finish_updating_none]
  exact Program.run_ask _ _ (answered _ _)

/-- An update of a key that still holds what was read swaps it, and ends its call. -/
theorem run_updating_held {old : UInt64}
    (held : (state.store.drop (moments state.tick)).map call.key = some old)
    (now : OffsetDateTime) (retry : StoreM Settled) :
    (call.finish (call.updating (some old) now retry)).run (handle moments) state =
      (some (.ok (call.limiter.report (granted call.increment (some old) now))),
        state.next moments false ((state.store.drop (moments state.tick)).insert call.key
          (nanoseconds (newTat call.increment (some old) now)))) := by
  -- A value that survives until the swap is the one that was read.
  have answered : ∀ new ttl, handle moments (.compareAndSwapWithTtl call.key old new ttl) state =
      (some (.ok true), state.next moments false
        ((state.store.drop (moments state.tick)).insert call.key new)) := by
    intro new ttl
    simp only [handle, MemoryStore.handleStrict, if_pos held]
    rfl
  rw [Call.finish_updating_some]
  exact Program.run_ask _ _ (answered _ _)

/-- An update of a key that has vanished changes nothing, and is retried. -/
theorem run_updating_gone {old : UInt64}
    (gone : (state.store.drop (moments state.tick)).map call.key ≠ some old)
    (now : OffsetDateTime) (retry : StoreM Settled) :
    (call.finish (call.updating (some old) now retry)).run (handle moments) state =
      (call.finish retry).run (handle moments)
        (state.next moments false (state.store.drop (moments state.tick))) := by
  -- A strict swap leaves an absent key alone.
  have answered : ∀ new ttl, handle moments (.compareAndSwapWithTtl call.key old new ttl) state =
      (some (.ok false), state.next moments false (state.store.drop (moments state.tick))) := by
    intro new ttl
    simp only [handle, MemoryStore.handleStrict, if_neg gone]
    rfl
  rw [Call.finish_updating_some]
  exact Program.run_ask _ _ (answered _ _)

/--
A call that ends well after no more than so many reads, as it would on the store that keeps every
key at the clock of its last read, and that keeps in step with it.
-/
def Served (moments : Nat → Moment) (call : Call) (state : Fleeting) (kept : MemoryStore)
    (passes : Nat) (ran : MemoryStore.Outcome × Fleeting) : Prop :=
  ∃ made earlier result, ran.1 = some (.ok result) ∧
    ran.2.reads = made :: (earlier ++ state.reads) ∧ earlier.length < passes ∧
    ran.1.decision =
      (kept.rateLimit call.limiter call.key call.quantity made).1.decision ∧
    InStep moments ran.2 (kept.rateLimit call.limiter call.key call.quantity made).2

/-- A pass that finds a key and loses it before its update has read once, and finds it no more. -/
structure Lost (moments : Nat → Moment) (call : Call) (state : Fleeting) (kept : MemoryStore)
    (state' : Fleeting) : Prop where
  found : state.store.map call.key ≠ none
  absent : state'.store.map call.key = none
  read : ∃ made, state'.reads = made :: state.reads
  inStep : InStep moments state' kept

/-- A read at a moment that blocks ends the call as the store that keeps every key does. -/
theorem served_blocked (nonzero : call.limiter.emissionInterval.nanos ≠ 0) {read : Fleeting}
    {made : OffsetDateTime} {tatVal : Option UInt64}
    (same : due (storedTat tatVal) made.nanos = due (storedTat (kept.map call.key)) made.nanos)
    (reads : read.reads = made :: state.reads) (inStep : InStep moments read kept)
    (blocks : call.limiter.Blocks call.increment tatVal made) :
    Served moments call state kept 1
      (some (.ok (call.limiter.report (call.limiter.blocked call.increment tatVal made))), read) := by
  -- Both stores schedule the request alike, so both refuse it for the same wait.
  have blocks' := (call.limiter.blocks_of_due call.increment same).mp blocks
  have whole := MemoryStore.rateLimit_blocked nonzero blocks'
  refine ⟨made, [], _, rfl, reads, Nat.zero_lt_one, ?_, ?_⟩
  · rw [whole, Keyspace.decision_blocked, newTat_of_due call.increment same]
    exact (Keyspace.decision_blocked _ _ _ _).symm
  · rw [whole]
    exact inStep

/-- An update that succeeds ends the call as the store that keeps every key does. -/
theorem served_granted (nonzero : call.limiter.emissionInterval.nanos ≠ 0) {ended : Fleeting}
    {made : OffsetDateTime} {tatVal : Option UInt64}
    (same : due (storedTat tatVal) made.nanos = due (storedTat (kept.map call.key)) made.nanos)
    (reads : ended.reads = made :: state.reads)
    (inStep : InStep moments ended
      (kept.insert call.key (nanoseconds (newTat call.increment tatVal made))))
    (passes : ¬call.limiter.Blocks call.increment tatVal made) :
    Served moments call state kept 1
      (some (.ok (call.limiter.report (granted call.increment tatVal made))), ended) := by
  -- Both stores schedule the request alike, so both are given the same time.
  have passes' := mt (call.limiter.blocks_of_due call.increment same).mpr passes
  have whole := MemoryStore.rateLimit_granted nonzero passes'
  rw [newTat_of_due call.increment same] at inStep
  refine ⟨made, [], _, rfl, reads, Nat.zero_lt_one, ?_, ?_⟩
  · rw [whole]
    exact (Keyspace.decision_granted _ _ _ _).trans (Keyspace.decision_granted _ _ _ _).symm
  · rw [whole]
    exact inStep

/-- One pass serves its call, or loses its key and leaves the rest to its retry. -/
theorem pass (ordered : Advancing moments)
    (nonzero : call.limiter.emissionInterval.nanos ≠ 0) (step : InStep moments state kept)
    (retry : StoreM Settled) :
    let ran := (call.finish (call.limiter.iteration call.key call.increment retry)).run
      (handle moments) state
    Served moments call state kept 1 ran ∨
      ∃ state', Lost moments call state kept state' ∧
        ran = (call.finish retry).run (handle moments) state' := by
  -- The read, the decision and the update are followed over both stores at once.
  intro ran
  -- The read is answered from what is left of the store at this moment.
  let now := (moments state.tick).now
  let store := state.store.drop (moments state.tick)
  let read := state.next moments true store
  have inStep : InStep moments read kept := inStep_next ordered step.drop
  have same := step.drop.alike call.key now.nanos le_rfl
  have answered : handle moments (.getWithTime call.key) state =
      (some (.ok (store.map call.key, now)), read) := rfl
  simp only [ran]
  rw [Call.finish_iteration, Program.run_ask _ _ answered]
  by_cases blocks : call.limiter.Blocks call.increment (store.map call.key) now
  · left
    simp only [if_pos blocks]
    exact served_blocked nonzero same rfl inStep blocks
  simp only [if_neg blocks]
  -- The update is made at the following moment, which may have taken the key away.
  let store' := read.store.drop (moments read.tick)
  let new := nanoseconds (newTat call.increment (store.map call.key) now)
  have written : InStep moments (read.next moments false (store'.insert call.key new))
      (kept.insert call.key new) := inStep_next ordered (inStep.drop.insert call.key new)
  cases found : store.map call.key with
  | none =>
    left
    have absent : read.store.map call.key = none := found
    rw [run_updating_absent absent, ← found]
    exact served_granted nonzero same rfl written blocks
  | some old =>
    by_cases held : store'.map call.key = some old
    · left
      rw [run_updating_held held, ← found]
      exact served_granted nonzero same rfl written blocks
    · right
      refine ⟨_, ⟨?_, ?_, ⟨now, rfl⟩, inStep_next ordered inStep.drop⟩,
        run_updating_gone held now retry⟩
      · intro absent
        have gone : store.map call.key = none := MemoryStore.drop_absent absent
        rw [gone] at found
        cases found
      · -- The key was there at the read, so it has vanished since.
        rcases MemoryStore.drop_cases store (moments read.tick) call.key with kept | ⟨lost, _⟩
        · exact absurd (kept.trans found) held
        · exact lost

/-- A call over the fleeting store takes two passes at most. -/
theorem run_program (ordered : Advancing moments)
    (nonzero : call.limiter.emissionInterval.nanos ≠ 0) (step : InStep moments state kept) :
    Served moments call state kept 2 (call.program.run (handle moments) state) := by
  -- The first pass may lose its key, and the second one has none left to lose.
  have loop : call.program = call.finish (call.limiter.iteration call.key call.increment
      (call.limiter.iteration call.key call.increment
        (call.limiter.attempts call.key call.increment 3))) := Call.program_eq nonzero
  rw [loop]
  rcases pass ordered nonzero step _ with
    ⟨made, earlier, result, ended, reads, few, served⟩ | ⟨state', lost, ran⟩
  · exact ⟨made, earlier, result, ended, reads, Nat.lt_succ_of_lt few, served⟩
  · -- The second pass finds no key that it could lose.
    rw [ran]
    rcases pass ordered nonzero lost.inStep _ with
      ⟨made, earlier, result, ended, reads, few, served⟩ | ⟨_, again, _⟩
    · obtain ⟨first, read⟩ := lost.read
      refine ⟨made, [first], result, ended, ?_, Nat.one_lt_two, served⟩
      rw [reads, List.length_eq_zero_iff.mp (Nat.lt_one_iff.mp few), read]
      rfl
    · exact absurd lost.absent again.found

/--
Every call of a run ends well after at most two reads: it decides as the whole call does at the
clock of its last read on the store that keeps every key, and afterwards every key is due at the
same instants in both stores, whatever vanishes until then.
-/
def Unnoticed (moments : Nat → Moment) : List Call → Fleeting → MemoryStore → Prop
  | [], _, _ => True
  | call :: rest, state, kept =>
    let ran := call.program.run (handle moments) state
    ∃ made earlier result,
      let whole := kept.rateLimit call.limiter call.key call.quantity made
      ran.1 = some (.ok result) ∧ ran.2.reads = made :: (earlier ++ state.reads) ∧
        earlier.length < 2 ∧ MemoryStore.Outcome.decision ran.1 = whole.1.decision ∧
        (∀ later : Moment, ran.2.clock.nanos ≤ later.now.nanos → ∀ key,
          due ((ran.2.store.drop later).tat key) later.now.nanos =
            due (whole.2.tat key) later.now.nanos) ∧
        Unnoticed moments rest ran.2 whole.2

/-- No run notices the vanishing, as long as its state is in step. -/
theorem unnoticed_of_inStep (ordered : Advancing moments)
    {calls : List Call} (rates : ∀ call ∈ calls, call.limiter.emissionInterval.nanos ≠ 0)
    (step : InStep moments state kept) : Unnoticed moments calls state kept := by
  -- Every call keeps in step, and the rest of the run starts from there.
  induction calls generalizing state kept with
  | nil => trivial
  | cons call rest ih =>
    obtain ⟨nonzero, rates⟩ := List.forall_mem_cons.mp rates
    obtain ⟨made, earlier, result, ended, reads, few, decided, inStep⟩ :=
      run_program ordered nonzero step
    refine ⟨made, earlier, result, ended, reads, few, decided, ?_, ih rates inStep⟩
    intro later reached key
    exact (inStep.shadows.drop reached).alike key later.now.nanos le_rfl

/--
The expiry of a spent key is unobservable: whichever keys vanish at whichever moments after their
time, between calls or during them, no call of a run notices.
-/
theorem vanishing_unnoticed (moments : Nat → Moment)
    (ordered : Advancing moments) (calls : List Call)
    (rates : ∀ call ∈ calls, call.limiter.emissionInterval.nanos ≠ 0) (store : MemoryStore) :
    Unnoticed moments calls (start moments store) store :=
  unnoticed_of_inStep ordered rates (start_inStep moments store)

/-- One operation a second, where every key whose time has passed vanishes from the fourth one on. -/
def readmeMoments (tick : Nat) : Moment :=
  ⟨⟨tick * 1000000000⟩, fun _ => decide (3 ≤ tick)⟩

/-- The second call loses its key between its read and its swap, and reads again. -/
theorem vanishing_unnoticed_readme :
    let call : Call := ⟨readmeQuota.limiter, "user123", 1⟩
    Unnoticed readmeMoments [call, call] (start readmeMoments MemoryStore.new)
      MemoryStore.new := by
  intro call
  apply vanishing_unnoticed
  · -- The clock of a tick is its number in seconds.
    intro first second before
    rw [OffsetDateTime.le_iff]
    simp only [readmeMoments]
    omega
  · -- There is only the one limiter.
    intro other member
    have same : other = call := by simpa using member
    rw [same]
    exact readmeQuota.limiter_nonzero

end Fleeting

end RedisCell
