import RedisCell.Cell.RateLimitLaws
import RedisCell.Redis.Key

/-! The store that keeps arrival times in the server's own keys. -/

namespace RedisCell

open Interaction

namespace InternalRedisStore

/-- `InternalRedisStore::compare_and_swap_with_ttl`. -/
def compareAndSwapWithTtl (key : String) (old new : UInt64) (ttl : Duration) : RedisM Bool := do
  let key ← RedisKeyWritable.openKeyWritable key
  match ← key.read with
  | some text =>
    -- An empty text stands for a key that has expired meanwhile, and is not parsed.
    if text == "" then return false
    match parseU64 text with
    | .error kind => throw (.parseInt kind)
    | .ok value =>
      if value == old then
        key.write (u64ToString new)
        key.setExpire ttl
        return true
      else return false
  | none => return false

/-- `InternalRedisStore::get_with_time`. -/
def getWithTime (key : String) : RedisM (Option UInt64 × OffsetDateTime) := do
  let key ← RedisKey.openKey key
  let text ← key.read
  -- A text that is not a count of nanoseconds is unwrapped, and so panics.
  let value ← text.mapM fun text => unwrap (parseU64 text)
  let now ← invoke .nowUtc
  return (value, now)

/-- `InternalRedisStore::set_if_not_exists_with_ttl`, which gives any key a new expiry. -/
def setIfNotExistsWithTtl (key : String) (value : UInt64) (ttl : Duration) : RedisM Bool := do
  let key ← RedisKeyWritable.openKeyWritable key
  let res ←
    if ← key.isEmpty then do
      key.write (u64ToString value)
      pure true
    else pure false
  key.setExpire ttl
  return res

/-- How the store carries out each operation of its trait. -/
def perform : (op : StoreOp) → Program RedisOp RedisOp.Answer op.Answer
  | .getWithTime key => (getWithTime key).run
  | .compareAndSwapWithTtl key old new ttl => (compareAndSwapWithTtl key old new ttl).run
  | .setIfNotExistsWithTtl key value ttl => (setIfNotExistsWithTtl key value ttl).run

/-- Carry out a computation over a store in the server. -/
def carryOut {α : Type} (program : StoreM α) : RedisM α := ExceptT.mk (program.run.translate perform)

end InternalRedisStore

end RedisCell
