import RedisCell.Cell.Linearizable
import RedisCell.Cell.RetryAfter
import RedisCell.Interaction.Asked

/-! One call against a store that may answer anything: how it goes on, and how it ends. -/

namespace RedisCell

open Interaction RateLimiter

/-- An operation of a store with the answer it was given. -/
abbrev Exchange := (op : StoreOp) × op.Answer

/-- What a store replies: what a read has found, whether an update was made, or an error. -/
inductive StoreReply where
  | found (tatVal : Option UInt64) (now : OffsetDateTime)
  | updated (won : Bool)
  | failure (error : CellError)
  deriving DecidableEq

namespace Exchange

/-- The reply to a read. -/
def ofRead : Except CellError (Option UInt64 × OffsetDateTime) → StoreReply
  | .error error => .failure error
  | .ok (tatVal, now) => .found tatVal now

/-- The reply to an update. -/
def ofUpdate : Except CellError Bool → StoreReply
  | .error error => .failure error
  | .ok won => .updated won

/-- What the store has replied to an operation. -/
def reply : Exchange → StoreReply
  | ⟨.getWithTime _, answer⟩ => ofRead answer
  | ⟨.compareAndSwapWithTtl .., answer⟩ => ofUpdate answer
  | ⟨.setIfNotExistsWithTtl .., answer⟩ => ofUpdate answer

/-- An update that another limiter has won. -/
def lost (exchange : Exchange) : Bool := exchange.reply == .updated false

/-- Only a read finds something. -/
theorem isGet_of_found {exchange : Exchange} {tatVal : Option UInt64} {now : OffsetDateTime}
    (finds : exchange.reply = .found tatVal now) : exchange.1.isGet = true := by
  -- An update is replied with its success or an error.
  obtain ⟨op, answer⟩ := exchange
  cases op with
  | getWithTime key => rfl
  | compareAndSwapWithTtl key old new ttl => cases answer <;> cases finds
  | setIfNotExistsWithTtl key value ttl => cases answer <;> cases finds

end Exchange

/-- A store that gives every operation some answer, which need not fit the answers before it. -/
structure AdversarialStore (σ : Type) where
  handle : Handler StoreOp StoreOp.Answer σ
  answers : ∀ op state, ∃ answer state', handle op state = (some answer, state')
  /-- The only thing it keeps to is the range of its clock. -/
  timed : ∀ {key state tatVal now state'},
    handle (.getWithTime key) state = (some (.ok (tatVal, now)), state') →
      0 ≤ now.nanos ∧ now.nanos ≤ 2 ^ 63

namespace RateLimiter

/-- What a call returns that has lost every update. -/
def contention : CellError :=
  .generic ("Failed to update rate limit after " ++ maxCasAttempts.repr ++ " attempts")

end RateLimiter

namespace Call

/-- The read of a call. -/
def readExchange (call : Call) (answer : Except CellError (Option UInt64 × OffsetDateTime)) :
    Exchange := ⟨.getWithTime call.key, answer⟩

/-- The update that a call makes of what it has read. -/
def updateExchange (call : Call) (tatVal : Option UInt64) (now : OffsetDateTime)
    (answer : Except CellError Bool) : Exchange :=
  let new := newTat call.increment tatVal now
  match tatVal with
  | some old => ⟨.compareAndSwapWithTtl call.key old (nanoseconds new) (new - now), answer⟩
  | none => ⟨.setIfNotExistsWithTtl call.key (nanoseconds new) (new - now), answer⟩

section Exchanges

variable {call : Call} {tatVal : Option UInt64} {now : OffsetDateTime}

/-- A read that is answered finds what it is told. -/
@[simp] theorem readExchange_ok :
    (call.readExchange (.ok (tatVal, now))).reply = .found tatVal now := rfl

/-- An update that is answered is won or lost as it is told. -/
@[simp] theorem updateExchange_ok (won : Bool) :
    (call.updateExchange tatVal now (.ok won)).reply = .updated won := by
  cases tatVal <;> rfl

/-- An update that fails is a failure of its store. -/
@[simp] theorem updateExchange_error (error : CellError) :
    (call.updateExchange tatVal now (.error error)).reply = .failure error := by
  cases tatVal <;> rfl

end Exchanges

/-- A read, at a clock within the range, that lets the call go on to its update. -/
def Passes (call : Call) (tatVal : Option UInt64) (now : OffsetDateTime) : Prop :=
  (0 ≤ now.nanos ∧ now.nanos ≤ 2 ^ 63) ∧ ¬call.limiter.Blocks call.increment tatVal now

/--
What a call may exchange with a store, and return, that may still retry so many lost updates.
Every answer but a lost update ends it.
-/
inductive Course (call : Call) :
    Nat → List Exchange → Except CellError (Bool × RateLimitResult) → Prop where
  | unread {left} (error : CellError) :
      call.Course left [call.readExchange (.error error)] (.error error)
  | refused {left tatVal now} (blocks : call.limiter.Blocks call.increment tatVal now) :
      call.Course left [call.readExchange (.ok (tatVal, now))]
        (.ok (call.limiter.report (call.limiter.blocked call.increment tatVal now)))
  | unwritten {left tatVal now} (passes : call.Passes tatVal now) (error : CellError) :
      call.Course left
        [call.readExchange (.ok (tatVal, now)), call.updateExchange tatVal now (.error error)]
        (.error error)
  | granted {left tatVal now} (passes : call.Passes tatVal now) :
      call.Course left
        [call.readExchange (.ok (tatVal, now)), call.updateExchange tatVal now (.ok true)]
        (.ok (call.limiter.report (granted call.increment tatVal now)))
  | exhausted {tatVal now} (passes : call.Passes tatVal now) :
      call.Course 0
        [call.readExchange (.ok (tatVal, now)), call.updateExchange tatVal now (.ok false)]
        (.error contention)
  | retried {left tatVal now exchanges outcome} (passes : call.Passes tatVal now)
      (later : call.Course left exchanges outcome) :
      call.Course (left + 1)
        (call.readExchange (.ok (tatVal, now)) :: call.updateExchange tatVal now (.ok false) ::
          exchanges) outcome

section Run

variable {call : Call} {σ : Type} {tatVal : Option UInt64} {now : OffsetDateTime}
  {retry : StoreM Settled} {left : Nat}

/-- After what was exchanged before, a program that an adversary answers takes a course. -/
def TakesCourse (call : Call) (store : AdversarialStore σ) (left : Nat)
    (program : Program StoreOp StoreOp.Answer (Except CellError (Bool × RateLimitResult)))
    (before : List Exchange) (state : σ) : Prop :=
  ∃ outcome, (program.run store.handle state).1 = some outcome ∧
    call.Course left (before ++ program.exchanges store.handle state) outcome

/-- An update is asked once, and its answer decides how the call goes on. -/
theorem run_updating (call : Call) (store : AdversarialStore σ) (tatVal : Option UInt64)
    (now : OffsetDateTime) (retry : StoreM Settled) (state : σ) :
    ∃ answer state',
      (call.finish (call.updating tatVal now retry)).run store.handle state =
        (call.updated tatVal now retry answer).run store.handle state' ∧
      (call.finish (call.updating tatVal now retry)).exchanges store.handle state =
        call.updateExchange tatVal now answer ::
          (call.updated tatVal now retry answer).exchanges store.handle state' := by
  -- What was read decides which update it is.
  cases tatVal with
  | none =>
    rw [finish_updating_none]
    obtain ⟨answer, state', answered⟩ := store.answers (.setIfNotExistsWithTtl call.key
      (nanoseconds (newTat call.increment none now)) (newTat call.increment none now - now)) state
    exact ⟨answer, state', Program.run_ask _ _ answered, Program.exchanges_ask _ _ answered⟩
  | some old =>
    rw [finish_updating_some]
    obtain ⟨answer, state', answered⟩ := store.answers (.compareAndSwapWithTtl call.key old
      (nanoseconds (newTat call.increment (some old) now))
      (newTat call.increment (some old) now - now)) state
    exact ⟨answer, state', Program.run_ask _ _ answered, Program.exchanges_ask _ _ answered⟩

/-- One pass takes a course when its retry does after a lost update. -/
theorem iteration_takesCourse (store : AdversarialStore σ)
    (lost : ∀ {tatVal now} state, call.Passes tatVal now →
      call.TakesCourse store left (call.finish retry)
        [call.readExchange (.ok (tatVal, now)), call.updateExchange tatVal now (.ok false)] state)
    (state : σ) :
    call.TakesCourse store left
      (call.finish (call.limiter.iteration call.key call.increment retry)) [] state := by
  -- The read may fail, be refused or pass, and only a pass asks anything more.
  obtain ⟨read, state', answered⟩ := store.answers (.getWithTime call.key) state
  rw [finish_iteration, TakesCourse, Program.run_ask _ _ answered,
    Program.exchanges_ask _ _ answered]
  rcases read with error | ⟨tatVal, now⟩
  · exact ⟨_, rfl, .unread error⟩
  by_cases blocks : call.limiter.Blocks call.increment tatVal now
  · simp only [if_pos blocks]
    exact ⟨_, rfl, .refused blocks⟩
  have passes : call.Passes tatVal now := ⟨store.timed answered, blocks⟩
  simp only [if_neg blocks]
  -- Only a lost update leaves anything to the retry.
  obtain ⟨answer, state'', run, exchanges⟩ := call.run_updating store tatVal now retry state'
  rw [run, exchanges]
  rcases answer with error | won
  · exact ⟨_, rfl, .unwritten passes error⟩
  cases won with
  | true => exact ⟨_, rfl, .granted passes⟩
  | false => exact lost state'' passes

/-- The loop takes a course with as many retries as it has left. -/
theorem attempts_takesCourse (store : AdversarialStore σ) (left : Nat) (state : σ) :
    call.TakesCourse store left
      (call.finish (call.limiter.attempts call.key call.increment left)) [] state := by
  -- The last attempt fails when it is lost, and any earlier one is retried by the rest of the loop.
  induction left generalizing state with
  | zero => exact iteration_takesCourse store (fun _ passes => ⟨_, rfl, .exhausted passes⟩) state
  | succ left ih =>
    refine iteration_takesCourse store (fun state passes => ?_) state
    obtain ⟨outcome, returned, course⟩ := ih state
    exact ⟨outcome, returned, .retried passes course⟩

end Run

/-- How the last reply to a call decides what it returns. -/
def Ends (outcome : Except CellError (Bool × RateLimitResult)) : StoreReply → Prop
  | .found .. => ∃ result, outcome = .ok (true, result)
  | .updated true => ∃ result, outcome = .ok (false, result)
  | .updated false => outcome = .error contention
  | .failure error => outcome = .error error

section Ends

variable {outcome : Except CellError (Bool × RateLimitResult)} {reply : StoreReply}

/-- A call is admitted by an update that was made, and by nothing else. -/
theorem Ends.granted_iff (ends : Ends outcome reply) :
    (∃ result, outcome = .ok (false, result)) ↔ reply = .updated true := by
  -- Any other reply has another outcome.
  cases reply with
  | found tatVal now =>
    obtain ⟨result, rfl⟩ := ends
    simp
  | updated won =>
    cases won with
    | true => exact iff_of_true ends rfl
    | false =>
      cases ends
      simp
  | failure error =>
    cases ends
    simp

/-- A call is limited by what it has read, and by nothing else. -/
theorem Ends.limited_iff (ends : Ends outcome reply) :
    (∃ result, outcome = .ok (true, result)) ↔ ∃ tatVal now, reply = .found tatVal now := by
  -- Any other reply has another outcome.
  cases reply with
  | found tatVal now => exact iff_of_true ends ⟨tatVal, now, rfl⟩
  | updated won =>
    cases won with
    | true =>
      obtain ⟨result, rfl⟩ := ends
      simp
    | false =>
      cases ends
      simp
  | failure error =>
    cases ends
    simp

/-- An error is contention after a lost update, or the store's own. -/
theorem Ends.error (ends : Ends outcome reply) {error : CellError} (failed : outcome = .error error) :
    (error = contention ∧ reply = .updated false) ∨ reply = .failure error := by
  subst failed
  -- A read and an update that was made end the call well.
  cases reply with
  | found tatVal now =>
    obtain ⟨result, impossible⟩ := ends
    cases impossible
  | updated won =>
    cases won with
    | true =>
      obtain ⟨result, impossible⟩ := ends
      cases impossible
    | false => exact Or.inl ⟨Except.error.inj ends, rfl⟩
  | failure other => exact Or.inr (congrArg StoreReply.failure (Except.error.inj ends).symm)

/-- Without an error of the store, contention is a lost update. -/
theorem Ends.contended_iff (ends : Ends outcome reply) :
    (outcome = .error contention ∧ ∀ error, reply ≠ .failure error) ↔
      reply = .updated false := by
  -- An error of the store is the only other one that a call returns.
  cases reply with
  | found tatVal now =>
    obtain ⟨result, rfl⟩ := ends
    simp
  | updated won =>
    cases won with
    | true =>
      obtain ⟨result, rfl⟩ := ends
      simp
    | false => exact iff_of_true ⟨ends, nofun⟩ rfl
  | failure error => simp

end Ends

/-- A course ends with one exchange, before which it has read and lost updates. -/
structure Closes (left : Nat) (before : List Exchange) (last : Exchange)
    (outcome : Except CellError (Bool × RateLimitResult)) : Prop where
  ends : Ends outcome last.reply
  open_ : ∀ exchange ∈ before,
    exchange.reply = .updated false ∨ ∃ tatVal now, exchange.reply = .found tatVal now
  bounded : before.countP Exchange.lost ≤ left
  spent : last.reply = .updated false → before.countP Exchange.lost = left

/-- Every course has an end. -/
theorem Course.closes {call : Call} {left : Nat} {exchanges : List Exchange}
    {outcome : Except CellError (Bool × RateLimitResult)}
    (course : call.Course left exchanges outcome) :
    ∃ before last, exchanges = before ++ [last] ∧ Closes left before last outcome := by
  -- A lost update comes before all that the retries exchange.
  induction course with
  | unread error => exact ⟨[], _, rfl, rfl, by simp, by simp, nofun⟩
  | refused blocks => exact ⟨[], _, rfl, ⟨_, rfl⟩, by simp, by simp, nofun⟩
  | unwritten passes error =>
    refine ⟨[_], _, rfl, ?_, by simp, by simp [Exchange.lost], by simp⟩
    rw [updateExchange_error]
    exact rfl
  | granted passes =>
    refine ⟨[_], _, rfl, ?_, by simp, by simp [Exchange.lost], by simp⟩
    rw [updateExchange_ok]
    exact ⟨_, rfl⟩
  | exhausted passes =>
    refine ⟨[_], _, rfl, ?_, by simp, by simp [Exchange.lost], by simp [Exchange.lost]⟩
    rw [updateExchange_ok]
    exact rfl
  | retried passes later ih =>
    obtain ⟨before, last, rfl, closes⟩ := ih
    refine ⟨_ :: _ :: before, last, rfl, closes.ends, ?_, ?_, ?_⟩
    · simpa using closes.open_
    · simpa [List.countP_cons, Exchange.lost] using closes.bounded
    · simpa [List.countP_cons, Exchange.lost] using closes.spent

/-- Every course begins with a read of its key. -/
theorem Course.starts {call : Call} {left : Nat} {exchanges : List Exchange}
    {outcome : Except CellError (Bool × RateLimitResult)}
    (course : call.Course left exchanges outcome) :
    ∃ answer rest, exchanges = ⟨.getWithTime call.key, answer⟩ :: rest := by
  cases course <;> exact ⟨_, _, rfl⟩

section Closes

variable {left : Nat} {before : List Exchange} {last : Exchange}
  {outcome : Except CellError (Bool × RateLimitResult)}

/-- Before its last exchange a course updates only what it loses. -/
theorem Closes.updates_le (closes : Closes left before last outcome) :
    (before.countP fun exchange => !exchange.1.isGet) ≤ before.countP Exchange.lost := by
  -- An update among them was answered, but not made.
  apply List.countP_mono_left
  intro exchange member update
  rcases closes.open_ exchange member with lost | ⟨tatVal, now, read⟩
  · simp [Exchange.lost, lost]
  · -- What has found something is no update.
    rw [Exchange.isGet_of_found read] at update
    cases update

/-- A course loses every update exactly when its last exchange is a lost one too. -/
theorem Closes.spent_iff (closes : Closes left before last outcome) :
    (before ++ [last]).countP Exchange.lost = left + 1 ↔ last.reply = .updated false := by
  -- The exchanges before the last one lose no more updates than the retries allow.
  have bounded := closes.bounded
  by_cases lost : last.reply = .updated false
  · simp [Exchange.lost, lost, ← closes.spent lost]
  · simp only [List.countP_append, List.countP_singleton, Exchange.lost, beq_iff_eq, lost,
      if_false, iff_false]
    omega

/-- Nothing before the last exchange has charged the key or failed. -/
theorem Closes.unsettled (closes : Closes left before last outcome) {exchange : Exchange}
    (member : exchange ∈ before) :
    exchange.reply ≠ .updated true ∧ ∀ error, exchange.reply ≠ .failure error := by
  -- What comes before is a read or a lost update.
  rcases closes.open_ exchange member with lost | ⟨tatVal, now, read⟩
  · simp [lost]
  · simp [read]

/-- A failure is the last exchange, and the call returns its error. -/
theorem Closes.failed (closes : Closes left before last outcome) {first after : List Exchange}
    {exchange : Exchange} {error : CellError} (same : before ++ [last] = first ++ exchange :: after)
    (failure : exchange.reply = .failure error) : after = [] ∧ outcome = .error error := by
  -- Whatever follows an exchange, that exchange is before the last one.
  rcases List.eq_nil_or_concat' after with rfl | ⟨middle, other, rfl⟩
  · obtain ⟨_, rfl⟩ := List.append_singleton_inj.mp same
    have ends := closes.ends
    rw [failure] at ends
    exact ⟨rfl, ends⟩
  · rw [← List.cons_append, ← List.append_assoc, List.append_singleton_inj] at same
    have member : exchange ∈ before := by simp [same.1]
    exact absurd failure ((closes.unsettled member).2 error)

end Closes

end Call

namespace AcceptedCall

/-- The call, made on a key. -/
def toCall (call : AcceptedCall) (key : String) : Call := ⟨call.limiter, key, call.quantity⟩

/--
An update that is made of a read: it swaps the value that was read, or sets a key without one, to
the later of now and that value, moved by the increment.
-/
def Updates (call : AcceptedCall) (key : String) (tatVal : Option UInt64) (now : OffsetDateTime)
    (op : StoreOp) : Prop :=
  ∃ new ttl, (new.toNat : Int) = Gcra.due (storedTat tatVal) now.nanos + call.increment ∧
    op = match tatVal with
      | some old => .compareAndSwapWithTtl key old new ttl
      | none => .setIfNotExistsWithTtl key new ttl

/-- Reads and updates take turns, and every update is made of the read before it. -/
def Alternates (call : AcceptedCall) (key : String) : List Exchange → Prop
  | [] => True
  | [read] => read.1 = .getWithTime key
  | read :: update :: rest => read.1 = .getWithTime key ∧
    (∃ tatVal now, read.reply = .found tatVal now ∧ call.Updates key tatVal now update.1) ∧
      Alternates call key rest

/-- A call that charges its key once at most, and how it ends. -/
structure ChargesOnce (call : AcceptedCall) (key : String) (exchanges : List Exchange)
    (outcome : Except CellError (Bool × RateLimitResult)) : Prop where
  starts : ∃ answer rest, exchanges = ⟨.getWithTime key, answer⟩ :: rest
  alternates : call.Alternates key exchanges
  bounded : (exchanges.countP fun exchange => !exchange.1.isGet) ≤ maxCasAttempts + 1
  /-- An admitted call has ended with an update that was made. -/
  granted : (∃ result, outcome = .ok (false, result)) ↔
    exchanges.getLast?.map Exchange.reply = some (.updated true)
  /-- A limited call has ended with a read. -/
  limited : (∃ result, outcome = .ok (true, result)) ↔
    ∃ tatVal now, exchanges.getLast?.map Exchange.reply = some (.found tatVal now)
  /-- Unless it comes from the store, the error of contention tells that every update was lost. -/
  contended : (outcome = .error contention ∧
      ∀ exchange ∈ exchanges, ∀ error, exchange.reply ≠ .failure error) ↔
    exchanges.countP Exchange.lost = maxCasAttempts + 1
  once : ∀ exchange ∈ exchanges.dropLast, exchange.reply ≠ .updated true
  /-- An error of the store ends the call at once. -/
  failed : ∀ before exchange after error, exchanges = before ++ exchange :: after →
    exchange.reply = .failure error → after = [] ∧ outcome = .error error
  /-- There is no other error than those two. -/
  errors : ∀ error, outcome = .error error →
    (error = contention ∧ exchanges.countP Exchange.lost = maxCasAttempts + 1) ∨
      exchanges.getLast?.map Exchange.reply = some (.failure error)

/-- The update of a read that passes is exact. -/
theorem updateExchange_updates {call : AcceptedCall} (nonneg : 0 ≤ call.increment) {key : String}
    {tatVal : Option UInt64} {now : OffsetDateTime} (passes : (call.toCall key).Passes tatVal now)
    (answer : Except CellError Bool) :
    call.Updates key tatVal now ((call.toCall key).updateExchange tatVal now answer).1 := by
  obtain ⟨⟨afterEpoch, early⟩, passes⟩ := passes
  -- The tolerance is a word, so that a value counts every time up to it.
  have tolerance : call.tolerance < 2 ^ 63 := call.toleranceFits.2
  have counts : call.limiter.Counts now := by
    rw [RateLimiter.Counts, call.limiter_tolerance]
    exact ⟨afterEpoch, by omega⟩
  have increment : (call.toCall key).increment.nanos = call.increment := call.limiter_increment
  have counted := call.limiter.nanoseconds_newTat (increment ▸ nonneg) counts passes
  rw [increment] at counted
  cases tatVal with
  | none => exact ⟨_, _, counted, rfl⟩
  | some old => exact ⟨_, _, counted, rfl⟩

/-- Every course of a call alternates. -/
theorem alternates_of_course {call : AcceptedCall} (nonneg : 0 ≤ call.increment) {key : String}
    {left : Nat} {exchanges : List Exchange}
    {outcome : Except CellError (Bool × RateLimitResult)}
    (course : (call.toCall key).Course left exchanges outcome) :
    call.Alternates key exchanges := by
  -- Each constructor begins with a read, and goes on with the update of that read.
  induction course with
  | unread error => rfl
  | refused blocks => rfl
  | unwritten passes error =>
    exact ⟨rfl, ⟨_, _, rfl, updateExchange_updates nonneg passes _⟩, trivial⟩
  | granted passes =>
    exact ⟨rfl, ⟨_, _, rfl, updateExchange_updates nonneg passes _⟩, trivial⟩
  | exhausted passes =>
    exact ⟨rfl, ⟨_, _, rfl, updateExchange_updates nonneg passes _⟩, trivial⟩
  | retried passes later ih =>
    exact ⟨rfl, ⟨_, _, rfl, updateExchange_updates nonneg passes _⟩, ih⟩

/-- A course that ends charges once at most. -/
theorem chargesOnce_of_closes {call : AcceptedCall} {key : String} {before : List Exchange}
    {last : Exchange} {outcome : Except CellError (Bool × RateLimitResult)}
    (starts : ∃ answer rest, before ++ [last] = ⟨.getWithTime key, answer⟩ :: rest)
    (alternates : call.Alternates key (before ++ [last]))
    (closes : Call.Closes maxCasAttempts before last outcome) :
    call.ChargesOnce key (before ++ [last]) outcome := by
  -- Each clause reads off how the course ended, its last exchange taken apart from the others.
  refine ⟨starts, alternates, ?_, ?_, ?_, ?_, ?_, ?_, ?_⟩
  · -- The last exchange is one update more at most.
    have updates := closes.updates_le
    have bounded := closes.bounded
    have single : ([last].countP fun exchange => !exchange.1.isGet) ≤ 1 := List.countP_le_length
    rw [List.countP_append]
    omega
  · rw [List.getLast?_concat, Option.map_some, Option.some.injEq]
    exact closes.ends.granted_iff
  · simp only [List.getLast?_concat, Option.map_some, Option.some.injEq]
    exact closes.ends.limited_iff
  · rw [closes.spent_iff, ← closes.ends.contended_iff, List.forall_mem_append,
      List.forall_mem_singleton]
    exact and_congr_right fun _ => and_iff_right fun _ member => (closes.unsettled member).2
  · intro exchange member
    rw [List.dropLast_concat] at member
    exact (closes.unsettled member).1
  · intro first exchange after error same failure
    exact closes.failed same failure
  · intro error failed
    rw [closes.spent_iff, List.getLast?_concat, Option.map_some, Option.some.injEq]
    exact closes.ends.error failed

/--
Against a store that may answer anything, a call returns, its reads and updates take turns, and it
charges its key once at most.
-/
theorem charges_once (call : AcceptedCall) (nonneg : 0 ≤ call.increment) {σ : Type}
    (store : AdversarialStore σ) (key : String) (state : σ) :
    ∃ outcome, ((call.toCall key).program.run store.handle state).1 = some outcome ∧
      call.ChargesOnce key ((call.toCall key).program.exchanges store.handle state) outcome := by
  -- A call of an accepted rate is its loop.
  have program : (call.toCall key).program = _ := Call.program_eq call.accepted
  obtain ⟨outcome, returned, course⟩ :=
    (call.toCall key).attempts_takesCourse store maxCasAttempts state
  rw [program]
  obtain ⟨before, last, same, closes⟩ := course.closes
  have alternates := alternates_of_course nonneg course
  have starts := course.starts
  refine ⟨outcome, returned, ?_⟩
  rw [List.nil_append] at same alternates starts
  rw [same] at alternates starts ⊢
  exact chargesOnce_of_closes starts alternates closes

/-- A store on which another limiter wins every update. -/
def busyStore : AdversarialStore Unit where
  handle
    | .getWithTime _, state => (some (.ok (none, OffsetDateTime.unixEpoch)), state)
    | .compareAndSwapWithTtl .., state => (some (.ok false), state)
    | .setIfNotExistsWithTtl .., state => (some (.ok false), state)
  answers := by
    intro op state
    cases op <;> exact ⟨_, _, rfl⟩
  timed := by
    intro key state tatVal now state' answered
    cases answered
    decide

/-- A call of the documented quota that takes three tokens. -/
def readmeCall : AcceptedCall := ⟨readmeQuota.quota, 3, by decide, by decide, by decide⟩

/-- Against a store that loses every swap, the documented call fails for contention. -/
theorem charges_once_readme :
    ((readmeCall.toCall "user123").program.run busyStore.handle ()).1 =
      some (.error contention) := by
  obtain ⟨outcome, returned, once⟩ := charges_once readmeCall (by decide) busyStore "user123" ()
  -- All six updates are lost.
  have lost : ((readmeCall.toCall "user123").program.exchanges busyStore.handle ()).countP
      Exchange.lost = maxCasAttempts + 1 := by decide
  rw [returned, (once.contended.mpr lost).1]

end AcceptedCall

end RedisCell
