import RedisCell.Redis.Raw
import Mathlib.Logic.Function.Basic

/-! The documented behaviour of the module functions on keys that expire. -/

namespace RedisCell

open Interaction

/-- The value of a key: a string, or a value of another type. -/
inductive Content where
  | text (bytes : ByteArray)
  | foreign
  deriving DecidableEq

/-- A key that has a value, and from what instant on it reads as absent. -/
structure Entry where
  content : Content
  expiry : Option OffsetDateTime
  deriving DecidableEq

/-- One part of the reply to a command. -/
inductive Reply where
  | array (len : Int64)
  | integer (value : Int64)
  | error (message : String)
  deriving DecidableEq

/-- What a command can observe of a server, and what it can change. -/
structure Keyspace where
  entries : String → Option Entry
  clock : OffsetDateTime
  replies : List Reply
  /-- How often the command has asked to be replicated as it is. -/
  replications : Nat

namespace Keyspace

/-- A keyspace without keys, when the clock shows the epoch. -/
def empty : Keyspace := ⟨fun _ => none, OffsetDateTime.unixEpoch, [], 0⟩

/-- A key with an expiry is readable until then. -/
def live (keyspace : Keyspace) (name : String) : Option Entry :=
  (keyspace.entries name).filter fun entry =>
    -- The deadline is the first instant at which the key is gone.
    match entry.expiry with
    | none => true
    | some deadline => keyspace.clock < deadline

/-- Put an entry under a name. -/
def put (keyspace : Keyspace) (name : String) (entry : Entry) : Keyspace :=
  { keyspace with entries := Function.update keyspace.entries name (some entry) }

/-- The bytes of a key, of which an absent key and a value of another type have none. -/
def bytes (keyspace : Keyspace) (name : String) : ByteArray :=
  match (keyspace.live name).map Entry.content with
  | some (.text bytes) => bytes
  | _ => ByteArray.empty

/-- Reading finds a null pointer for an absent key, and writing never does. -/
def openKey (keyspace : Keyspace) (name : String) (mode : KeyMode) : Option RedisModuleKey :=
  match mode with
  | .read => (keyspace.live name).map fun _ => ⟨name, .read⟩
  | .readWrite => some ⟨name, .readWrite⟩

/-- The bytes behind a pointer. -/
def stringDma (keyspace : Keyspace) : Option RedisModuleKey → ByteArray
  | none => ByteArray.empty
  | some key => keyspace.bytes key.name

/-- Setting a string replaces the value and clears the expiry. -/
def stringSet (keyspace : Keyspace) (key : Option RedisModuleKey) (str : String) :
    Status × Keyspace :=
  -- Only a key that was opened for writing can be set.
  match key with
  | some ⟨name, .readWrite⟩ => (.ok, keyspace.put name ⟨.text str.toByteArray, none⟩)
  | _ => (.err, keyspace)

/-- An expiry of minus one removes the expiry, and a smaller one is refused. -/
def setExpire (keyspace : Keyspace) (key : Option RedisModuleKey) (expire : Int64) :
    Status × Keyspace :=
  match key with
  | some ⟨name, .readWrite⟩ =>
    -- A key without a value has nothing to expire.
    match keyspace.live name with
    | none => (.err, keyspace)
    | some entry =>
      if 0 ≤ expire.toInt then
        (.ok, keyspace.put name
          { entry with expiry := some (keyspace.clock + Duration.new 0 (expire.toInt * 1000000)) })
      else if expire = -1 then (.ok, keyspace.put name { entry with expiry := none })
      else (.err, keyspace)
  | _ => (.err, keyspace)

/-- Add one part to the reply. -/
def reply (keyspace : Keyspace) (part : Reply) : Keyspace :=
  { keyspace with replies := keyspace.replies ++ [part] }

/-- Let the clock show another instant. -/
def wait (keyspace : Keyspace) (now : OffsetDateTime) : Keyspace := { keyspace with clock := now }

/-- The documented answer to each call, which takes no time. -/
def handle : Handler RedisOp RedisOp.Answer Keyspace
  | .openKey name mode, keyspace => (some (keyspace.openKey name mode), keyspace)
  | .stringDma key, keyspace => (some (keyspace.stringDma key), keyspace)
  | .stringSet key str, keyspace =>
    let (status, keyspace) := keyspace.stringSet key str
    (some status, keyspace)
  | .setExpire key expire, keyspace =>
    let (status, keyspace) := keyspace.setExpire key expire
    (some status, keyspace)
  | .replicateVerbatim, keyspace =>
    (some Status.ok, { keyspace with replications := keyspace.replications + 1 })
  | .replyWithArray len, keyspace => (some Status.ok, keyspace.reply (.array len))
  | .replyWithError err, keyspace => (some (), keyspace.reply (.error err))
  | .replyWithLongLong ll, keyspace => (some Status.ok, keyspace.reply (.integer ll))
  | .nowUtc, keyspace => (some keyspace.clock, keyspace)

end Keyspace

/-- A server that behaves as documented, seen through what a command can observe of it. -/
structure Server (σ : Type) where
  handle : Handler RedisOp RedisOp.Answer σ
  /-- Time passes between commands. -/
  wait : σ → OffsetDateTime → σ
  view : σ → Keyspace
  documented : Program.Simulates handle Keyspace.handle view
  waits : ∀ state now, view (wait state now) = (view state).wait now

/-- The documented behaviour is itself a server. -/
def Server.keyspace : Server Keyspace where
  handle := Keyspace.handle
  wait := Keyspace.wait
  view := id
  documented := fun _ _ => rfl
  waits := fun _ _ => rfl

end RedisCell
