import RedisCell.Interaction.Credits
import RedisCell.Cell.RateLimitLaws
import RedisCell.Throttle.Handled
import Mathlib.Order.Bounds.Defs

/-! The command makes a bounded number of calls, whatever the server answers. -/

namespace RedisCell

open Interaction

/-- Every call of a module function counts as one. -/
def RawOp.calls : Tariff RawOp RawOp.Answer := .flat fun _ => 1

/-- So does every call of the command that is asked for without its pointers. -/
def RedisOp.calls : Tariff RedisOp RedisOp.Answer := .flat fun _ => 1

/-- How many calls a store operation may make, and how many of them an answer has spared. -/
def StoreOp.calls : Tariff StoreOp StoreOp.Answer where
  advance
    | .getWithTime _ => 6
    | .compareAndSwapWithTtl .. => 9
    | .setIfNotExistsWithTtl .. => 9
  refund
    -- A null pointer is not read, and a value that is not replaced is not written.
    | .getWithTime _, .ok (none, _) => 1
    | .compareAndSwapWithTtl .., .ok false => 4
    | .setIfNotExistsWithTtl .., .ok false => 3
    | _, _ => 0

namespace RateLimiter

variable (limiter : RateLimiter) (key : String) (increment : Duration)

/-- What an update leaves to the next pass, which there is only when it has lost. -/
def leaves (credits : Nat) : Except CellError Bool → Nat
  | .ok false => credits
  | _ => 0

/-- A pass that loses its update has made eleven calls, and one that settles has made fifteen. -/
theorem iteration_spends {retry : StoreM Settled} {credits : Nat}
    (later : retry.run.Spends StoreOp.calls (fun _ => 0) (credits + 4)) :
    (limiter.iteration key increment retry).run.Spends StoreOp.calls (fun _ => 0)
      (credits + 15) := by
  -- The read is paid first, and gives back what it spares.
  rw [iteration_eq]
  have read : (getWithTime key).run.Spends StoreOp.calls
      (fun result => credits + 9 + StoreOp.calls.refund (.getWithTime key) result) (credits + 15) :=
    Program.spends_lift (by simp [StoreOp.calls]) fun answer => by simp [StoreOp.calls]
  refine read.except_bind (fun _ => Nat.zero_le _) fun (tatVal, now) => ?_
  simp only
  split
  · exact Nat.zero_le _
  · -- An absent key spares the read one call, and a set that loses takes one more than a swap.
    have updates : (update key increment tatVal now).run.Spends StoreOp.calls
        (leaves (credits + 4))
        (credits + 9 + StoreOp.calls.refund (.getWithTime key) (.ok (tatVal, now))) := by
      cases tatVal with
      | none =>
        refine Program.spends_lift (by simp [StoreOp.calls]) fun answer => ?_
        rcases answer with _ | _ | _ <;> simp [StoreOp.calls, leaves]
      | some value =>
        refine Program.spends_lift (by simp [StoreOp.calls]) fun answer => ?_
        rcases answer with _ | _ | _ <;> simp [StoreOp.calls, leaves]
    refine updates.except_bind (fun _ => Nat.zero_le _) fun updated => ?_
    cases updated with
    | true => exact Nat.zero_le _
    | false => exact later

/-- Every further attempt adds the calls of one pass that loses its update. -/
theorem attempts_spends (left : Nat) :
    (limiter.attempts key increment left).run.Spends StoreOp.calls (fun _ => 0)
      (11 * left + 15) := by
  -- The induction is on the attempts that are left.
  induction left with
  | zero => exact limiter.iteration_spends key increment (Nat.zero_le _)
  | succ left ih => exact limiter.iteration_spends key increment ih

/-- A call of the limiter is settled after seventy calls. -/
theorem rateLimit_spends (quantity : Int64) :
    (limiter.rateLimit key quantity).run.Spends StoreOp.calls (fun _ => 0) 70 := by
  unfold rateLimit
  -- A limiter of no rate asks for nothing.
  split
  · exact Nat.zero_le _
  · exact (limiter.attempts_spends key _ maxCasAttempts).except_bind (fun _ => Nat.zero_le _)
      fun _ => Nat.zero_le _

end RateLimiter

namespace Handled

variable (left : Nat)

/-- One call is made. -/
theorem lift_spends (op : RawOp) :
    (Program.lift op : RawProgram op.Answer).Spends RawOp.calls (fun _ => left) (left + 1) :=
  Program.spends_lift (Nat.le_add_left 1 left) fun _ => Nat.le_refl left

/-- An operation costs one call of the server. -/
theorem invokeRaw_spends (op : RawOp) :
    (invokeRaw op).run.Spends RawOp.calls (fun _ => left) (left + 1) := by
  -- The answer is passed on without a call.
  rw [invokeRaw, ExceptT.run_lift]
  exact (lift_spends left op).bind fun _ => Nat.le_refl left

/-- Reading a key costs one call. -/
theorem readKey_spends (key : Option (Pointer .key)) :
    (readKey key).run.Spends RawOp.calls (fun _ => left) (left + 1) :=
  (invokeRaw_spends left _).except_bind (fun _ => Nat.le_refl left) fun _ => Nat.le_refl left

/-- Creating a string costs one call. -/
theorem RedisString.create_spends (text : String) :
    (RedisString.create text).Spends RawOp.calls (fun _ => left) (left + 1) :=
  (lift_spends left _).bind fun _ => Nat.le_refl left

namespace RedisKey

/-- A key that is opened for reading names itself, and drops the string that does. -/
theorem openKey_spends (key : String) :
    (openKey key).Spends RawOp.calls (fun _ => left) (left + 3) := by
  -- The name is created, the key opened, and the name freed.
  refine (RedisString.create_spends (left + 2) key).bind fun keyStr => ?_
  refine (lift_spends (left + 1) _).bind fun keyInner => ?_
  exact (lift_spends left _).bind fun _ => Nat.le_refl left

/-- A null pointer costs nothing to read. -/
theorem read_spends (key : RedisKey) :
    key.read.run.Spends RawOp.calls (fun result => match result with
      | .ok none => left + 1
      | _ => left) (left + 1) := by
  unfold read
  -- A null key is not read at all.
  split
  · exact Nat.le_refl (left + 1)
  · exact (readKey_spends left _).except_bind (fun _ => Nat.le_refl left) fun _ => Nat.le_refl left

end RedisKey

namespace RedisKeyWritable

variable (key : RedisKeyWritable)

/-- Opening a key for writing costs two calls. -/
theorem openKeyWritable_spends (name : String) :
    (openKeyWritable name).Spends RawOp.calls (fun _ => left) (left + 2) := by
  -- The name is created and the key opened, and the name stays until the drop.
  refine (RedisString.create_spends (left + 1) name).bind fun keyStr => ?_
  exact (lift_spends left _).bind fun _ => Nat.le_refl left

/-- The key is closed, and the string that names it is freed. -/
theorem drop_spends : key.drop.Spends RawOp.calls (fun _ => left) (left + 2) :=
  (lift_spends (left + 1) _).bind fun _ => lift_spends left _

/-- Reading an opened key costs one call. -/
theorem read_spends : key.read.run.Spends RawOp.calls (fun _ => left) (left + 1) :=
  (readKey_spends left _).except_bind (fun _ => Nat.le_refl left) fun _ => Nat.le_refl left

/-- Asking whether a key is empty costs one call. -/
theorem isEmpty_spends : key.isEmpty.run.Spends RawOp.calls (fun _ => left) (left + 1) := by
  -- The text is compared in memory.
  refine (key.read_spends left).except_bind (fun _ => Nat.le_refl left) fun text => ?_
  cases text <;> exact Nat.le_refl left

/-- Setting an expiry costs one call. -/
theorem setExpire_spends (expire : Duration) :
    (key.setExpire expire).run.Spends RawOp.calls (fun _ => left) (left + 1) := by
  -- The status is looked at without a call.
  refine (invokeRaw_spends left _).except_bind (fun _ => Nat.le_refl left) fun status => ?_
  cases status <;> exact Nat.le_refl left

/-- The string of a value is created, set and freed. -/
theorem write_spends (val : String) :
    (key.write val).run.Spends RawOp.calls (fun _ => left) (left + 3) := by
  -- The string is created, written and freed, whatever the server answers.
  refine Program.Spends.inScope (left + 2) 1 (RedisString.create_spends _ val) (fun valStr => ?_)
    fun valStr => lift_spends 0 _
  refine (invokeRaw_spends (left + 1) _).except_bind (fun _ => Nat.le_refl _) fun status => ?_
  cases status <;> exact Nat.le_refl _

end RedisKeyWritable

namespace InternalRedisStore

/-- A swap spares four calls when it takes no action. -/
theorem compareAndSwapWithTtl_spends (key : String) (old new : UInt64) (ttl : Duration) :
    (compareAndSwapWithTtl key old new ttl).run.Spends RawOp.calls
      (StoreOp.calls.refund (.compareAndSwapWithTtl key old new ttl)) 9 := by
  -- Two calls open the key, and two close it again.
  refine Program.Spends.inScope 7 2 (RedisKeyWritable.openKeyWritable_spends 7 key)
    (fun key => ?_) fun key => key.drop_spends 0
  refine (key.read_spends 6).except_bind (fun _ => by simp [StoreOp.calls]) fun text => ?_
  cases text with
  | none => exact Nat.le_refl 6
  | some text =>
    simp only
    split
    · exact Nat.le_refl 6
    · cases parseU64 text with
      | error kind => exact show 2 ≤ 6 by decide
      | ok value =>
        simp only
        split
        · refine (key.write_spends 3 _).except_bind (fun _ => by simp [StoreOp.calls]) fun _ => ?_
          exact (key.setExpire_spends 2 ttl).except_bind (fun _ => by simp [StoreOp.calls])
            fun _ => Nat.le_refl 2
        · exact Nat.le_refl 6

/-- A set spares three calls when its key has a value, whose expiry it still sets. -/
theorem setIfNotExistsWithTtl_spends (name : String) (value : UInt64) (ttl : Duration) :
    (setIfNotExistsWithTtl name value ttl).run.Spends RawOp.calls
      (StoreOp.calls.refund (.setIfNotExistsWithTtl name value ttl)) 9 := by
  -- Opening the key and asking whether it is empty are paid in any case.
  refine Program.Spends.inScope 7 2 (RedisKeyWritable.openKeyWritable_spends 7 name)
    (fun key => ?_) fun key => key.drop_spends 0
  refine (key.isEmpty_spends 6).except_bind (fun _ => by simp [StoreOp.calls]) fun empty => ?_
  -- The expiry is set in both branches.
  let spared := StoreOp.calls.refund (.setIfNotExistsWithTtl name value ttl)
  have expires : ∀ (value : Bool) (left : Nat), spared (.ok value) + 2 ≤ left →
      (do
        key.setExpire ttl
        return value : RawM Bool).run.Spends RawOp.calls (fun result => spared result + 2)
          (left + 1) := by
    intro value left enough
    refine (key.setExpire_spends left ttl).except_bind (fun _ => ?_) fun _ => enough
    exact (Nat.le_add_left 2 _).trans enough
  cases empty with
  | false => exact expires false 5 (by simp [spared, StoreOp.calls])
  | true =>
    refine (key.write_spends 3 _).except_bind (fun _ => by simp [StoreOp.calls]) fun _ => ?_
    exact expires true 2 (by simp [spared, StoreOp.calls])

/-- A read spares one call when its key is a null pointer. -/
theorem getWithTime_spends (key : String) :
    (getWithTime key).run.Spends RawOp.calls (StoreOp.calls.refund (.getWithTime key)) 6 := by
  -- Opening and closing the key are paid in any case.
  refine Program.Spends.inScope 3 1 (RedisKey.openKey_spends 3 key) (fun key => ?_)
    fun key => lift_spends 0 _
  refine (key.read_spends 2).except_bind (fun _ => by simp [StoreOp.calls]) fun text => ?_
  cases text with
  | none =>
    exact (invokeRaw_spends 2 .nowUtc).except_bind (fun _ => by simp [StoreOp.calls])
      fun now => Nat.le_refl 2
  | some text =>
    rw [Option.mapM_some]
    -- Unwrapping a text returns or panics, and asks nothing.
    cases parseU64 text with
    | error kind => trivial
    | ok value =>
      exact (invokeRaw_spends 1 .nowUtc).except_bind (fun _ => by simp [StoreOp.calls])
        fun now => Nat.le_refl 1

/-- Each store operation gets by on what it takes in advance. -/
theorem perform_spends (op : StoreOp) :
    (perform op).Spends RawOp.calls (StoreOp.calls.refund op) (StoreOp.calls.advance op) := by
  -- Each operation has its own lemma.
  cases op with
  | getWithTime key => exact getWithTime_spends key
  | compareAndSwapWithTtl key old new ttl => exact compareAndSwapWithTtl_spends key old new ttl
  | setIfNotExistsWithTtl key value ttl => exact setIfNotExistsWithTtl_spends key value ttl

end InternalRedisStore

/-- A call that takes no pointer is made once, and any other one is not made. -/
theorem bare_spends (op : RedisOp) : op.bare.Spends RawOp.calls
    (RedisOp.calls.refund op) (RedisOp.calls.advance op) := by
  -- The operations with a pointer abort.
  cases op <;> first
    | trivial
    | exact lift_spends 0 _

/-- A part of a reply is one call, whose status decides whether another one follows. -/
theorem handled_spends (op : RedisOp) (status : op.Answer → Status) (message : String)
    (left : Nat) :
    (do
      let answer ← invoke op
      handleStatus (status answer) message).run.Spends RedisOp.calls (fun _ => left)
        (left + 1) := by
  -- The status is looked at without a call.
  have asks : (invoke op).run.Spends RedisOp.calls (fun _ => left) (left + 1) := by
    rw [invoke, ExceptT.run_lift]
    exact ⟨Nat.le_add_left 1 left, fun _ _ => Nat.le_refl left⟩
  refine asks.except_bind (fun _ => Nat.le_refl left) fun answer => ?_
  cases status answer <;> exact Nat.le_refl left

/-- A reply takes seven calls, with the one that replicates the command. -/
theorem reply_spends (throttled : Bool) (result : RateLimitResult) :
    (withoutPointers (ThrottleCommand.reply throttled result)).run.Spends RawOp.calls
      (fun _ => 0) 7 := by
  refine Program.Spends.translate bare_spends ?_
  -- Five integers stand between the array and the replication.
  have integer (ll : Int64) (left : Nat) :
      (replyInteger ll).run.Spends RedisOp.calls (fun _ => left) (left + 1) :=
    handled_spends (.replyWithLongLong ll) id _ left
  refine Program.Spends.except_bind (handled_spends (.replyWithArray 5) id _ 6)
    (fun _ => Nat.zero_le _) fun _ => ?_
  refine (integer _ 5).except_bind (fun _ => Nat.zero_le _) fun _ => ?_
  refine (integer _ 4).except_bind (fun _ => Nat.zero_le _) fun _ => ?_
  refine (integer _ 3).except_bind (fun _ => Nat.zero_le _) fun _ => ?_
  refine (integer _ 2).except_bind (fun _ => Nat.zero_le _) fun _ => ?_
  refine (integer _ 1).except_bind (fun _ => Nat.zero_le _) fun _ => ?_
  exact handled_spends .replicateVerbatim id _ 0

/-- The command makes seventy-seven calls at most. -/
theorem run_spends (args : List String) : (run args).run.Spends RawOp.calls (fun _ => 0) 77 := by
  -- Reading the words is free, and the reply is paid last.
  have read : (ExceptT.mk (pure (ThrottleCommand.arguments args)) : RawM _).run.Spends RawOp.calls
      (fun _ => 77) 77 := Nat.le_refl 77
  refine read.except_bind (fun _ => Nat.zero_le _) fun args => ?_
  have limited := Program.Spends.translate InternalRedisStore.perform_spends
    (args.limiter.rateLimit_spends args.key args.quantity)
  -- What the limiter does not touch is left for the reply.
  exact (limited.frame 7).except_bind (fun _ => Nat.zero_le _) fun answer => reply_spends _ _

/-- Decoding the arguments takes one call for each. -/
theorem parseArgs_spends (argv : List (Pointer .string)) (left : Nat) :
    (parseArgs argv).run.Spends RawOp.calls (fun _ => left) (argv.length + left) := by
  -- The induction is on the arguments.
  induction argv with
  | nil => exact Nat.le_of_eq (Nat.zero_add left).symm
  | cons redisStr rest ih =>
    -- Each word is read by one call.
    have word : (manifestRedisString redisStr).run.Spends RawOp.calls
        (fun _ => rest.length + left) (rest.length + left + 1) :=
      (invokeRaw_spends _ _).except_bind (fun _ => Nat.le_refl _) fun _ => Nat.le_refl _
    rw [List.length_cons, Nat.add_right_comm]
    refine word.except_bind (fun _ => Nat.le_add_left left _) fun arg => ?_
    exact ih.except_bind (fun _ => Nat.le_refl left) fun _ => Nat.le_refl left

/-- The harness makes one call for each argument, and seventy-eight more with that of an error. -/
theorem harness_spends (argv : List (Pointer .string)) :
    (harness argv).Spends RawOp.calls (fun _ => 0) (argv.length + 78) := by
  refine (parseArgs_spends argv 78).bind fun parsed => ?_
  -- Words that are no text make the harness panic.
  cases parsed with
  | error error => trivial
  | ok args =>
    refine ((run_spends args).frame 1).bind fun outcome => ?_
    -- Only a failure costs the one call that is left.
    cases outcome with
    | ok _ => exact Nat.zero_le _
    | error error => exact ⟨Nat.le_refl 1, fun _ _ => Nat.zero_le _⟩

/--
A server whose key has another value whenever it is opened for an update, five times over, and which
then refuses to replicate the command.
-/
def contrary : Handler RawOp RawOp.Answer Nat
  | .createString _, updates => (some ⟨2⟩, updates)
  | .freeString _, updates => (some (), updates)
  | .stringPtrLen _, updates => (some "1".toByteArray, updates)
  | .openKey _ .read, updates => (some (some ⟨0⟩), updates)
  | .openKey _ .readWrite, updates => (some (some ⟨1⟩), updates)
  | .closeKey _, updates => (some (), updates)
  | .stringDma key, updates =>
    if key = some ⟨0⟩ then (some "0".toByteArray, updates)
    else (some (if updates < 5 then "1" else "0").toByteArray, updates + 1)
  | .stringSet .., updates => (some .ok, updates)
  | .setExpire .., updates => (some .ok, updates)
  | .replicateVerbatim, updates => (some .err, updates)
  | .replyWithArray _, updates => (some .ok, updates)
  | .replyWithError _, updates => (some (), updates)
  | .replyWithLongLong _, updates => (some .ok, updates)
  | .nowUtc, updates => (some OffsetDateTime.unixEpoch, updates)
  -- The command never makes the other calls.
  | _, updates => (none, updates)

/--
Whatever the server answers, a command makes at most seventy-eight calls beside the one for each of
its arguments, and there is a server that has it make as many.
-/
theorem harness_calls :
    IsGreatest {others : Nat | ∃ (σ : Type) (handle : Handler RawOp RawOp.Answer σ) (state : σ)
      (argv : List (Pointer .string)),
      ((harness argv).asked handle state).length = argv.length + others} 78 := by
  constructor
  · -- The documented number of arguments, each of which is the text of a number.
    exact ⟨Nat, contrary, 0, [⟨3⟩, ⟨4⟩, ⟨5⟩, ⟨6⟩, ⟨7⟩], by decide +kernel⟩
  · rintro others ⟨σ, handle, state, argv, same⟩
    have worth := (harness_spends argv).asked_le handle state
    simp only [List.map_const', List.sum_replicate_nat, Nat.mul_one] at worth
    omega

end Handled

end RedisCell
