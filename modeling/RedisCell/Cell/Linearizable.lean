import RedisCell.Cell.Run
import RedisCell.Interaction.Pool

/-! Concurrent calls over one memory store are as good as one call at a time. -/

namespace RedisCell

open Interaction RateLimiter

/-- One call of a limiter on a key. -/
structure Call where
  limiter : RateLimiter
  key : String
  quantity : Int64

/-- The operations that read a key. -/
def StoreOp.isGet : StoreOp → Bool
  | .getWithTime _ => true
  | _ => false

namespace MemoryStore

/-- Every key that has a value in one store has one in the other. -/
def KeepsKeys (store store' : MemoryStore) : Prop :=
  ∀ key, store.map key ≠ none → store'.map key ≠ none

/-- Writing one key keeps every key that is there. -/
theorem insert_keepsKeys (store : MemoryStore) (key : String) (value : UInt64) :
    store.KeepsKeys (store.insert key value) := by
  -- The written key has a value now, and every other key is untouched.
  intro other present
  by_cases same : other = key
  · simp [same]
  · rwa [insert_of_ne store value same]

/-- No operation removes a key. -/
theorem handle_keepsKeys (now : OffsetDateTime) (op : StoreOp) (store : MemoryStore) :
    store.KeepsKeys (handle now op store).2 := by
  -- Only the two updates change the store, and both by inserting.
  cases op with
  | getWithTime key => exact fun _ present => present
  | compareAndSwapWithTtl key old new ttl =>
    show store.KeepsKeys (store.compareAndSwapWithTtl key old new).2
    unfold compareAndSwapWithTtl
    split
    · exact fun _ present => present
    · exact insert_keepsKeys store key new
  | setIfNotExistsWithTtl key value ttl =>
    show store.KeepsKeys (store.setIfNotExistsWithTtl key value).2
    unfold setIfNotExistsWithTtl
    split
    · exact fun _ present => present
    · exact insert_keepsKeys store key value

/-- An update that replaces what was expected of a key, or finds something else and does nothing. -/
def Updates (store : MemoryStore) (key : String) (expected : Option UInt64) (value : UInt64)
    (outcome : Except CellError Bool × MemoryStore) : Prop :=
  ∃ won, outcome.1 = .ok won ∧
    (won = true → store.map key = expected ∧ outcome.2 = store.insert key value) ∧
    (won = false → outcome.2 = store)

/-- Setting a key updates it from being absent. -/
theorem setIfNotExists_updates (store : MemoryStore) (key : String) (value : UInt64) :
    store.Updates key none value (store.setIfNotExistsWithTtl key value) := by
  -- Whether the update is won is whether the key is absent.
  cases stored : store.map key with
  | none => exact ⟨true, by simp [setIfNotExistsWithTtl, stored]⟩
  | some other => exact ⟨false, by simp [setIfNotExistsWithTtl, stored]⟩

/-- A swap on a key that is present replaces the value it expects, and no other. -/
theorem compareAndSwap_updates {store : MemoryStore} {key : String}
    (present : store.map key ≠ none) (old new : UInt64) :
    store.Updates key (some old) new (store.compareAndSwapWithTtl key old new) := by
  -- The value that is present is the expected one, or another.
  obtain ⟨value, stored⟩ := Option.ne_none_iff_exists'.mp present
  by_cases same : value = old
  · exact ⟨true, by simp [compareAndSwapWithTtl, stored, same]⟩
  · exact ⟨false, by simp [compareAndSwapWithTtl, stored, same]⟩

end MemoryStore

namespace Call

/-- The time a call adds to the schedule. -/
def increment (call : Call) : Duration := call.limiter.increment call.quantity

/-- Report what a part of the loop settles. -/
def finish (call : Call) (loop : StoreM Settled) :
    Program StoreOp StoreOp.Answer (Except CellError (Bool × RateLimitResult)) :=
  (loop >>= fun settled => return call.limiter.report settled).run

/-- A whole call. -/
def program (call : Call) :
    Program StoreOp StoreOp.Answer (Except CellError (Bool × RateLimitResult)) :=
  (call.limiter.rateLimit call.key call.quantity).run

/-- A call without a rate fails before it asks anything. -/
theorem program_zero {call : Call} (zero : call.limiter.emissionInterval.nanos = 0) :
    call.program = .ret (.error (.generic "Zero rates are not supported")) := by
  -- The limiter looks at its interval first.
  rw [program, rateLimit_zero zero]
  rfl

/-- Any other call is its loop, which is reported when it settles. -/
theorem program_eq {call : Call} (nonzero : call.limiter.emissionInterval.nanos ≠ 0) :
    call.program =
      call.finish (call.limiter.attempts call.key call.increment maxCasAttempts) := by
  -- What the loop settles is reported at its end.
  rw [program, rateLimit_eq nonzero]
  rfl

/-- What is left of a pass after a read that does not refuse its request. -/
def updating (call : Call) (tatVal : Option UInt64) (now : OffsetDateTime)
    (retry : StoreM Settled) : StoreM Settled := do
  if ← update call.key call.increment tatVal now then
    return granted call.increment tatVal now
  retry

/-- A pass asks for a read first. -/
theorem finish_iteration (call : Call) (retry : StoreM Settled) :
    call.finish (call.limiter.iteration call.key call.increment retry) =
      .ask (.getWithTime call.key) fun answer =>
        match answer with
        | .error error => .ret (.error error)
        | .ok (tatVal, now) => call.finish
            (if call.limiter.Blocks call.increment tatVal now then
              return call.limiter.blocked call.increment tatVal now
            else call.updating tatVal now retry) := by
  -- The pass asks one operation, and its two answers are continued separately.
  rw [finish, iteration_eq]
  show Program.ask _ _ = _
  congr
  funext answer
  cases answer with
  | error error => rfl
  | ok read => rfl

/-- How a call goes on with the answer to its update. -/
def updated (call : Call) (tatVal : Option UInt64) (now : OffsetDateTime)
    (retry : StoreM Settled) (answer : Except CellError Bool) :
    Program StoreOp StoreOp.Answer (Except CellError (Bool × RateLimitResult)) :=
  match answer with
  | .error error => .ret (.error error)
  | .ok true => .ret (.ok (call.limiter.report (granted call.increment tatVal now)))
  | .ok false => call.finish retry

/-- An update of a key that was missing asks to set it. -/
theorem finish_updating_none (call : Call) (now : OffsetDateTime) (retry : StoreM Settled) :
    call.finish (call.updating none now retry) =
      .ask (.setIfNotExistsWithTtl call.key (nanoseconds (newTat call.increment none now))
        (newTat call.increment none now - now)) (call.updated none now retry) := by
  -- Each answer of the store chooses one continuation.
  show Program.ask _ _ = _
  congr
  funext answer
  rcases answer with error | won
  · rfl
  · cases won <;> rfl

/-- An update of a key that was present asks to swap it. -/
theorem finish_updating_some (call : Call) (old : UInt64) (now : OffsetDateTime)
    (retry : StoreM Settled) :
    call.finish (call.updating (some old) now retry) =
      .ask (.compareAndSwapWithTtl call.key old
        (nanoseconds (newTat call.increment (some old) now))
        (newTat call.increment (some old) now - now)) (call.updated (some old) now retry) := by
  -- Each answer of the store chooses one continuation.
  show Program.ask _ _ = _
  congr
  funext answer
  rcases answer with error | won
  · rfl
  · cases won <;> rfl

/--
The stages of a call between its operations, with the clock its last read met: it is about to read,
or it has read a time that passes and is about to update, or it has failed.

What it read is not protected, but a key that was present then is present still.
-/
inductive Stage (call : Call) : Option OffsetDateTime →
    Program StoreOp StoreOp.Answer (Except CellError (Bool × RateLimitResult)) →
    MemoryStore → Prop where
  | reading {reading : Option OffsetDateTime} {program} {store : MemoryStore}
      (retry : StoreM Settled)
      (left : program = call.finish (call.limiter.iteration call.key call.increment retry))
      (nonzero : call.limiter.emissionInterval.nanos ≠ 0)
      (later : ∀ reading store, call.Stage reading (call.finish retry) store) :
      call.Stage reading program store
  | updating {program} {store : MemoryStore} (tatVal : Option UInt64) (now : OffsetDateTime)
      (retry : StoreM Settled) (left : program = call.finish (call.updating tatVal now retry))
      (nonzero : call.limiter.emissionInterval.nanos ≠ 0)
      (passes : ¬call.limiter.Blocks call.increment tatVal now)
      (present : tatVal ≠ none → store.map call.key ≠ none)
      (later : ∀ reading store, call.Stage reading (call.finish retry) store) :
      call.Stage (some now) program store
  | failed {reading : Option OffsetDateTime} {program} {store : MemoryStore} (error : CellError)
      (left : program = .ret (.error error)) : call.Stage reading program store

section Stage

variable {call : Call} {reading : Option OffsetDateTime} {store store' : MemoryStore}

/-- A loop is about to read, however often it may still retry. -/
theorem stage_attempts (nonzero : call.limiter.emissionInterval.nanos ≠ 0) (left : Nat) :
    ∀ reading store, call.Stage reading
      (call.finish (call.limiter.attempts call.key call.increment left)) store := by
  -- The last attempt can only fail, and every earlier one is retried by the rest of the loop.
  induction left with
  | zero =>
    intro reading store
    exact .reading _ rfl nonzero fun _ _ => .failed _ rfl
  | succ left ih =>
    intro reading store
    exact .reading _ rfl nonzero ih

/-- A whole call is about to read, or fails at once for want of a rate. -/
theorem stage_program (call : Call) (reading : Option OffsetDateTime) (store : MemoryStore) :
    call.Stage reading call.program store := by
  -- The zero rate is refused before anything is asked.
  by_cases zero : call.limiter.emissionInterval.nanos = 0
  · exact .failed _ (program_zero zero)
  · rw [program_eq zero]
    exact stage_attempts zero maxCasAttempts reading store

/-- A call at some stage has not succeeded. -/
theorem Stage.unsettled {value : Except CellError (Bool × RateLimitResult)}
    (stage : call.Stage reading (.ret value) store) : value.isOk = false := by
  -- The other stages ask an operation, so only a failure has reached a result.
  cases stage with
  | reading retry left =>
    rw [finish_iteration] at left
    cases left
  | updating tatVal now retry left =>
    cases tatVal with
    | none =>
      rw [finish_updating_none] at left
      cases left
    | some old =>
      rw [finish_updating_some] at left
      cases left
  | failed error left =>
    cases left
    rfl

/-- A stage outlasts every operation that removes no key. -/
theorem Stage.stable {program} (stage : call.Stage reading program store)
    (kept : store.KeepsKeys store') : call.Stage reading program store' := by
  -- Only the presence of the key matters, and a key is never removed.
  cases stage with
  | reading retry left nonzero later => exact .reading retry left nonzero later
  | updating tatVal now retry left nonzero passes present later =>
    exact .updating tatVal now retry left nonzero passes (fun read => kept _ (present read)) later
  | failed error left => exact .failed error left

/-- A call has its whole effect in one operation, as it would have it alone at that time. -/
def Takes (call : Call) (made : OffsetDateTime) (store : MemoryStore)
    (left : Program StoreOp StoreOp.Answer (Except CellError (Bool × RateLimitResult)))
    (store' : MemoryStore) : Prop :=
  ∃ value, left = .ret value ∧ value.isOk = true ∧
    call.program.run (MemoryStore.handle made) store = (some value, store')

/-- A read that refuses its request settles the call, and any other one is followed by an update. -/
theorem settles_reading (nonzero : call.limiter.emissionInterval.nanos ≠ 0)
    {retry : StoreM Settled}
    (later : ∀ reading store, call.Stage reading (call.finish retry) store)
    (now : OffsetDateTime) (store : MemoryStore) :
    let left := call.finish
      (if call.limiter.Blocks call.increment (store.map call.key) now then
        return call.limiter.blocked call.increment (store.map call.key) now
      else call.updating (store.map call.key) now retry)
    call.Takes now store left store ∨ call.Stage (some now) left store := by
  -- After a read that passes, a key that was seen is present.
  intro left
  by_cases blocks : call.limiter.Blocks call.increment (store.map call.key) now
  · left
    refine ⟨.ok (call.limiter.report (call.limiter.blocked call.increment (store.map call.key) now)),
      ?_, rfl, MemoryStore.rateLimit_blocked nonzero blocks⟩
    simp only [left, if_pos blocks]
    rfl
  · right
    apply Stage.updating (store.map call.key) now retry _ nonzero blocks id later
    simp only [left, if_neg blocks]

/-- An update that is won settles the call, and a lost one leaves the store alone. -/
theorem settles_updating {tatVal : Option UInt64} {now : OffsetDateTime} {retry : StoreM Settled}
    (nonzero : call.limiter.emissionInterval.nanos ≠ 0)
    (passes : ¬call.limiter.Blocks call.increment tatVal now)
    (later : ∀ reading store, call.Stage reading (call.finish retry) store)
    (store : MemoryStore) {outcome : Except CellError Bool × MemoryStore}
    (updates : store.Updates call.key tatVal (nanoseconds (newTat call.increment tatVal now))
      outcome) :
    let left := call.updated tatVal now retry outcome.1
    call.Takes now store left outcome.2 ∨
      outcome.2 = store ∧ call.Stage (some now) left store := by
  -- The outcome of the update says whether the key still held what was read.
  obtain ⟨won, answered, wins, loses⟩ := updates
  rw [answered]
  cases won with
  | false => exact Or.inr ⟨loses rfl, later _ _⟩
  | true =>
    -- The key still holds what was read, so the whole call would do the same here.
    obtain ⟨unchanged, inserted⟩ := wins rfl
    left
    refine ⟨.ok (call.limiter.report (granted call.increment tatVal now)), rfl, rfl, ?_⟩
    rw [inserted, ← unchanged]
    rw [← unchanged] at passes
    exact MemoryStore.rateLimit_granted nonzero passes

/-- Every operation settles its call, or leaves the store alone. -/
theorem Stage.settles {op : StoreOp} {next} (stage : call.Stage reading (.ask op next) store)
    (now : OffsetDateTime) :
    let left := (MemoryStore.handle now op store).1.elim .abort next
    let store' := (MemoryStore.handle now op store).2
    let reading' := if op.isGet then some now else reading
    (∃ made, reading' = some made ∧ call.Takes made store left store') ∨
      store' = store ∧ call.Stage reading' left store := by
  -- The operation is the one that the stage has left to ask.
  cases stage with
  | reading retry left nonzero later =>
    rw [finish_iteration] at left
    cases left
    rcases settles_reading nonzero later now store with takes | goes
    · exact Or.inl ⟨now, rfl, takes⟩
    · exact Or.inr ⟨rfl, goes⟩
  | updating tatVal read retry left nonzero passes present later =>
    cases tatVal with
    | none =>
      rw [finish_updating_none] at left
      cases left
      have updates := store.setIfNotExists_updates call.key
        (nanoseconds (newTat call.increment none read))
      rcases settles_updating nonzero passes later store updates with takes | goes
      · exact Or.inl ⟨read, rfl, takes⟩
      · exact Or.inr goes
    | some old =>
      rw [finish_updating_some] at left
      cases left
      have updates := MemoryStore.compareAndSwap_updates (present (Option.some_ne_none old)) old
        (nanoseconds (newTat call.increment (some old) read))
      rcases settles_updating nonzero passes later store updates with takes | goes
      · exact Or.inl ⟨read, rfl, takes⟩
      · exact Or.inr goes
  | failed error left => cases left

end Stage

/-- The stages are what a call knows while others interleave with it. -/
def outline {ι : Type} [DecidableEq ι] (calls : ι → Call) :
    Pool.Outline MemoryStore.handle (fun caller => (calls caller).program) StoreOp.isGet
      Except.isOk where
  Knows caller := (calls caller).Stage
  Moves := MemoryStore.KeepsKeys
  initial caller := stage_program (calls caller) none
  unsettled := Stage.unsettled
  stable := Stage.stable
  moves now _ := MemoryStore.handle_keepsKeys now _ _
  settles now stage := by
    rcases stage.settles now with ⟨made, read, value, returns, ok, ran⟩ | goes
    · exact Or.inl ⟨value, made, returns, ok, read, ran⟩
    · exact Or.inr goes

/--
Concurrent calls are linearizable: whatever the order of their operations and the times the clock
shows, the calls that succeed return what they would return one at a time in the order of their last
operations, each at the time of its last read, and leave the same store.
-/
theorem linearizable {ι : Type} [DecidableEq ι] (calls : ι → Call) (store : MemoryStore)
    (schedule : List (ι × OffsetDateTime)) :
    Pool.Linearized MemoryStore.handle (fun caller => (calls caller).program) StoreOp.isGet
      Except.isOk store
      ((Pool.start (fun caller => (calls caller).program) store).execute MemoryStore.handle
        schedule) :=
  (outline calls).linearized store schedule

/-- Two calls read an absent key, and the one whose update is lost reads again and comes second. -/
example :
    let call : Call := ⟨readmeQuota.limiter, "user123", 3⟩
    let pool := (Pool.start (fun _ : Bool => call.program) MemoryStore.new).execute
      MemoryStore.handle [(false, ⟨7⟩), (true, ⟨5⟩), (true, ⟨5⟩), (false, ⟨7⟩), (false, ⟨9⟩),
        (false, ⟨9⟩)]
    pool.order Except.isOk = [true, false] ∧
      pool.lastChoice StoreOp.isGet false = some ⟨9⟩ ∧
      pool.state.map "user123" = some 12000000005 := by
  decide

end Call

end RedisCell
