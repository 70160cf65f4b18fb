import RedisCell.Cell.RedisStoreLaws
import RedisCell.Interaction.Asked

/-! Which calls of a limiter write their key. -/

namespace RedisCell

open Interaction Keyspace

/-- A call to the server that changes a value or its expiry. -/
def RedisOp.Writes : RedisOp → Prop
  | .stringSet .. => True
  | .setExpire .. => True
  | _ => False

namespace InternalRedisStore

/-- Carrying out a sequence carries out its parts. -/
theorem carryOut_bind {α β : Type} (program : StoreM α) (next : α → StoreM β) :
    carryOut (program >>= next) = carryOut program >>= fun value => carryOut (next value) := by
  -- An error of the first part is carried out as the same error.
  apply ExceptT.ext
  show (program >>= next).run.translate perform = _
  rw [ExceptT.run_bind, Program.translate_bind, ExceptT.run_bind]
  congr
  funext result
  cases result <;> rfl

/-- Carrying out a read is the read of the store. -/
theorem carryOut_getWithTime (key : String) :
    carryOut (RedisCell.getWithTime key) = getWithTime key :=
  Program.bind_ret (getWithTime key).run

/-- One call to the server asks just that. -/
theorem invoke_confined {permitted : RedisOp → Prop} {op : RedisOp} (allowed : permitted op) :
    (invoke op).run.Confined permitted := by
  -- After the answer the program returns.
  rw [invoke, ExceptT.run_lift]
  exact ⟨allowed, fun _ => trivial⟩

/-- Reading a key never writes, whatever the server answers. -/
theorem read_confined (key : RedisKey) : key.read.run.Confined fun op => ¬op.Writes := by
  -- A null pointer asks nothing, and any other one asks for its bytes.
  unfold RedisKey.read
  split
  · trivial
  · refine Program.Confined.except_bind ?_ fun _ => trivial
    refine Program.Confined.except_bind (invoke_confined not_false) fun bytes => ?_
    show (Program.ret (fromUtf8 bytes)).Confined _
    trivial

/-- A limiter's read never writes, whatever the server answers. -/
theorem getWithTime_confined (key : String) :
    (getWithTime key).run.Confined fun op => ¬op.Writes := by
  -- Each part of the read is confined by itself.
  refine Program.Confined.except_bind ?_ fun key => ?_
  · exact Program.Confined.except_bind (invoke_confined not_false) fun _ => trivial
  refine Program.Confined.except_bind (read_confined key) fun text => ?_
  refine Program.Confined.except_bind ?_ fun _ => ?_
  · -- Unwrapping a text returns or panics, and asks nothing.
    cases text with
    | none => trivial
    | some text =>
      rw [Option.mapM_some]
      refine Program.Confined.except_bind ?_ fun _ => trivial
      cases parseU64 text <;> trivial
  · exact Program.Confined.except_bind (invoke_confined not_false) fun _ => trivial

/-- A charge writes its key first. -/
theorem charge_writes (keyspace : Keyspace) (name : String) (value : UInt64) (ttl : Duration) :
    ∃ op ∈ (charge name value ttl).run.asked Keyspace.handle keyspace, op.Writes := by
  -- The write comes first, so it is asked whatever follows it.
  refine ⟨.stringSet (some ⟨name, .readWrite⟩) (u64ToString value), ?_, trivial⟩
  apply Program.mem_asked_bind
  exact List.mem_cons_self

/-- The update after an undisturbed read writes its key. -/
theorem update_writes {keyspace : Keyspace} {key : String} {tatVal : Option UInt64}
    (reads : keyspace.tatVal key = some (.ok tatVal)) (increment : Duration)
    (now : OffsetDateTime) :
    ∃ op ∈ (carryOut (RateLimiter.update key increment tatVal now)).run.asked Keyspace.handle keyspace,
      op.Writes := by
  -- The update charges the key, with a swap or with an insert.
  let new := RateLimiter.newTat increment tatVal now
  -- Either update proceeds to the charge, whose operations it asks last.
  have proceeds : Program.Proceeds Keyspace.handle
      (carryOut (RateLimiter.update key increment tatVal now)).run keyspace
      (charge key (nanoseconds new) (new - now)).run keyspace := by
    cases tatVal with
    | none =>
      have update : carryOut (RateLimiter.update key increment none now) =
          setIfNotExistsWithTtl key (nanoseconds new) (new - now) := Program.bind_ret _
      rw [update]
      exact setIfNotExists_proceeds reads _ _
    | some value =>
      have update : carryOut (RateLimiter.update key increment (some value) now) =
          compareAndSwapWithTtl key value (nanoseconds new) (new - now) := Program.bind_ret _
      rw [update]
      exact compareAndSwap_proceeds reads _ _
  obtain ⟨op, member, writes⟩ := charge_writes keyspace key (nanoseconds new) (new - now)
  exact ⟨op, proceeds.asked.mem member, writes⟩

end InternalRedisStore

open InternalRedisStore

namespace Keyspace

variable {limiter : RateLimiter} {key : String} {quantity : Int64} {keyspace : Keyspace}
  {tatVal : Option UInt64} {error : CellError}

/-- A call starts with its read. -/
theorem carryOut_rateLimit (nonzero : limiter.emissionInterval.nanos ≠ 0) (key : String)
    (quantity : Int64) : ∃ retry, carryOut (limiter.rateLimit key quantity) =
      (InternalRedisStore.getWithTime key >>= fun read => carryOut (do
        if limiter.Blocks (limiter.increment quantity) read.1 read.2 then
          return limiter.blocked (limiter.increment quantity) read.1 read.2
        if ← RateLimiter.update key (limiter.increment quantity) read.1 read.2 then
          return RateLimiter.granted (limiter.increment quantity) read.1 read.2
        retry)) >>= fun settled => carryOut (pure (limiter.report settled)) := by
  -- The loop starts with a pass, and the pass with a read.
  obtain ⟨retry, loop⟩ := RateLimiter.attempts_eq_iteration limiter key
    (limiter.increment quantity) maxCasAttempts
  refine ⟨retry, ?_⟩
  rw [RateLimiter.rateLimit_eq nonzero, loop, carryOut_bind, RateLimiter.iteration_eq, carryOut_bind,
    carryOut_getWithTime]

/-- A call on a key that is not UTF-8 only reads. -/
theorem rateLimit_unread_asked (nonzero : limiter.emissionInterval.nanos ≠ 0)
    (reads : keyspace.tatVal key = some (.error error)) :
    ∀ op ∈ (carryOut (limiter.rateLimit key quantity)).run.asked Keyspace.handle keyspace,
      ¬op.Writes := by
  -- The call starts with the read, which fails.
  obtain ⟨retry, call⟩ := carryOut_rateLimit nonzero key quantity
  have read : (InternalRedisStore.getWithTime key).run.run Keyspace.handle keyspace =
      (some (.error error), keyspace) := answered_getWithTime reads
  -- The error of the read ends the pass, and with it the call.
  rw [call, Program.asked_bind_error (Program.run_bind_error read),
    Program.asked_bind_error read]
  exact (getWithTime_confined key).asked Keyspace.handle keyspace

/-- A call that passes writes its key. -/
theorem rateLimit_passed_asked (nonzero : limiter.emissionInterval.nanos ≠ 0)
    (reads : keyspace.tatVal key = some (.ok tatVal))
    (passes : ¬limiter.Blocks (limiter.increment quantity) tatVal keyspace.clock) :
    ∃ op ∈ (carryOut (limiter.rateLimit key quantity)).run.asked Keyspace.handle keyspace,
      op.Writes := by
  -- The operations of the update are among those that the call asks after its read.
  obtain ⟨retry, call⟩ := carryOut_rateLimit nonzero key quantity
  have read : (InternalRedisStore.getWithTime key).run.run Keyspace.handle keyspace =
      (some (.ok (tatVal, keyspace.clock)), keyspace) := answered_getWithTime reads
  obtain ⟨op, member, writes⟩ := update_writes reads (limiter.increment quantity) keyspace.clock
  refine ⟨op, ?_, writes⟩
  rw [call]
  apply Program.mem_asked_bind
  -- The pass goes on from its read to the update.
  refine (Program.Proceeds.bind_ok read).asked.mem ?_
  simp only [if_neg passes, carryOut_bind]
  exact Program.mem_asked_bind member

end Keyspace

end RedisCell
