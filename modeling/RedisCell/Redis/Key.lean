import RedisCell.Redis.Keyspace

/-! Keys opened by a command: what the crate reads from them and writes to them. -/

namespace RedisCell

open Interaction

/-- `read_key`. -/
def readKey (key : Option RedisModuleKey) : RedisM String := do
  let bytes ← invoke (.stringDma key)
  ExceptT.mk (pure (fromUtf8 bytes))

/-- A key opened for reading, whose pointer is null when the key is absent. -/
structure RedisKey where
  keyInner : Option RedisModuleKey

namespace RedisKey

/-- `Redis::open_key`. -/
def openKey (name : String) : RedisM RedisKey := do
  let keyInner ← invoke (.openKey name .read)
  return ⟨keyInner⟩

def isNull (key : RedisKey) : Bool := key.keyInner.isNone

def read (key : RedisKey) : RedisM (Option String) := do
  if key.isNull then return none
  else
    let text ← readKey key.keyInner
    return some text

end RedisKey

/-- A key opened for reading and writing, whose pointer is never checked. -/
structure RedisKeyWritable where
  keyInner : Option RedisModuleKey

namespace RedisKeyWritable

/-- `Redis::open_key_writable`. -/
def openKeyWritable (name : String) : RedisM RedisKeyWritable := do
  let keyInner ← invoke (.openKey name .readWrite)
  return ⟨keyInner⟩

def read (key : RedisKeyWritable) : RedisM (Option String) := do
  let text ← readKey key.keyInner
  return some text

def isEmpty (key : RedisKeyWritable) : RedisM Bool := do
  match ← key.read with
  | some text => return text == ""
  | none => return false

/-- Expire a key after the whole milliseconds of a span, cast from their wide type. -/
def setExpire (key : RedisKeyWritable) (expire : Duration) : RedisM Unit := do
  match ← invoke (.setExpire key.keyInner (Int64.ofInt expire.wholeMilliseconds)) with
  | .ok => pure ()
  | .err => throw (.generic "Error while setting key expire")

def write (key : RedisKeyWritable) (val : String) : RedisM Unit := do
  match ← invoke (.stringSet key.keyInner val) with
  | .ok => pure ()
  | .err => throw (.generic "Error while setting key")

end RedisKeyWritable

end RedisCell
