import RedisCell.Interaction.Ownership
import RedisCell.Throttle

/-! The pointers that the server hands to a command, and the wrappers that give them back. -/

namespace RedisCell

open Interaction

/-- What a pointer of the server points to. -/
inductive PointerKind where
  | string
  | key
  | callReply
  deriving DecidableEq, Repr

/-- A pointer of the server that is not null. -/
structure Pointer (kind : PointerKind) where
  address : Nat
  deriving DecidableEq, Repr

/-- A pointer of any kind, even a null one, as something to be held. -/
abbrev Handle := (kind : PointerKind) × Option (Pointer kind)

/-- A pointer to a string, as something to be held. -/
def Pointer.held (str : Pointer .string) : Handle := ⟨.string, some str⟩

/-- `raw::ReplyType`. -/
inductive ReplyType where
  | unknown
  | string
  | error
  | integer
  | array
  | nil
  deriving DecidableEq, Repr

/-- The module functions that the crate calls, over the pointers they take. -/
inductive RawOp where
  /-- The length that is passed leaves out the zero byte that ends the string. -/
  | createString (str : String)
  | freeString (str : Pointer .string)
  | stringPtrLen (str : Pointer .string)
  | openKey (keyname : Pointer .string) (mode : KeyMode)
  | closeKey (kp : Option (Pointer .key))
  | stringDma (key : Option (Pointer .key))
  | stringSet (key : Option (Pointer .key)) (str : Pointer .string)
  | setExpire (key : Option (Pointer .key)) (expire : Int64)
  | replicateVerbatim
  | replyWithArray (len : Int64)
  | replyWithError (err : String)
  | replyWithLongLong (ll : Int64)
  | replyWithString (str : Pointer .string)
  | call (cmdname fmt : String) (args : List (Pointer .string))
  | callReplyType (reply : Option (Pointer .callReply))
  | callReplyInteger (reply : Option (Pointer .callReply))
  | callReplyStringPtr (reply : Option (Pointer .callReply))
  | freeCallReply (reply : Option (Pointer .callReply))
  | nowUtc
  deriving DecidableEq

/-- What each function answers, where a key or a reply may be a null pointer. -/
def RawOp.Answer : RawOp → Type
  | .createString _ => Pointer .string
  | .freeString _ => Unit
  | .stringPtrLen _ => ByteArray
  | .openKey .. => Option (Pointer .key)
  | .closeKey _ => Unit
  | .stringDma _ => ByteArray
  | .stringSet .. => Status
  | .setExpire .. => Status
  | .replicateVerbatim => Status
  | .replyWithArray _ => Status
  | .replyWithError _ => Unit
  | .replyWithLongLong _ => Status
  | .replyWithString _ => Status
  | .call .. => Option (Pointer .callReply)
  | .callReplyType _ => ReplyType
  | .callReplyInteger _ => Int64
  | .callReplyStringPtr _ => ByteArray
  | .freeCallReply _ => Unit
  | .nowUtc => OffsetDateTime

/-- A computation over pointers that cannot fail. -/
abbrev RawProgram := Program RawOp RawOp.Answer

/-- A fallible computation over pointers. -/
abbrev RawM := ExceptT CellError RawProgram

/-- What each function does to the pointers it takes, and which pointer it hands out. -/
def RawOp.ownership : Ownership RawOp RawOp.Answer Handle where
  touches
    | .stringPtrLen str => [str.held]
    | .openKey keyname _ => [keyname.held]
    | .stringDma key => [⟨.key, key⟩]
    | .stringSet key str => [⟨.key, key⟩, str.held]
    | .setExpire key _ => [⟨.key, key⟩]
    | .replyWithString str => [str.held]
    | .call _ _ args => args.map Pointer.held
    | .callReplyType reply => [⟨.callReply, reply⟩]
    | .callReplyInteger reply => [⟨.callReply, reply⟩]
    | .callReplyStringPtr reply => [⟨.callReply, reply⟩]
    | _ => []
  releases
    | .freeString str => [str.held]
    | .closeKey kp => [⟨.key, kp⟩]
    | .freeCallReply reply => [⟨.callReply, reply⟩]
    | _ => []
  -- A null pointer is handed out as any other one is.
  acquires
    | .createString _, str => [Pointer.held str]
    | .openKey .., key => [⟨.key, key⟩]
    | .call .., reply => [⟨.callReply, reply⟩]
    | _, _ => []

/-- Call one module function. -/
def invokeRaw (op : RawOp) : RawM op.Answer := ExceptT.lift (Program.lift op)

/-- A call that takes no pointer is made as it is, and any other one cannot be. -/
def RedisOp.bare : (op : RedisOp) → RawProgram op.Answer
  | .openKey .. => .abort
  | .stringDma _ => .abort
  | .stringSet .. => .abort
  | .setExpire .. => .abort
  | .replicateVerbatim => Program.lift RawOp.replicateVerbatim
  | .replyWithArray len => Program.lift (RawOp.replyWithArray len)
  | .replyWithError err => Program.lift (RawOp.replyWithError err)
  | .replyWithLongLong ll => Program.lift (RawOp.replyWithLongLong ll)
  | .nowUtc => Program.lift RawOp.nowUtc

/-- A computation that takes no pointer. -/
def withoutPointers {α : Type} (program : RedisM α) : RawM α :=
  ExceptT.mk (program.run.translate RedisOp.bare)

namespace Handled

/-- A string of the server that is freed when it goes out of scope. -/
structure RedisString where
  strInner : Pointer .string

namespace RedisString

def create (s : String) : RawProgram RedisString := do
  let strInner ← Program.lift (RawOp.createString s)
  return ⟨strInner⟩

def drop (str : RedisString) : RawProgram Unit := Program.lift (RawOp.freeString str.strInner)

end RedisString

/-- `from_byte_string`, whose error is converted where it is returned. -/
def fromByteString (bytes : ByteArray) : RawM String := ExceptT.mk (pure (fromUtf8 bytes))

/-- `manifest_redis_string`. -/
def manifestRedisString (redisStr : Pointer .string) : RawM String := do
  let bytes ← invokeRaw (.stringPtrLen redisStr)
  fromByteString bytes

/-- `parse_args`. -/
def parseArgs : List (Pointer .string) → RawM (List String)
  | [] => pure []
  | redisStr :: rest => do
    let arg ← manifestRedisString redisStr
    let args ← parseArgs rest
    return arg :: args

/-- `read_key`. -/
def readKey (key : Option (Pointer .key)) : RawM String := do
  let bytes ← invokeRaw (.stringDma key)
  fromByteString bytes

/-- A key opened for reading, which is closed when it goes out of scope, even a null pointer. -/
structure RedisKey where
  keyInner : Option (Pointer .key)

namespace RedisKey

/-- The string that names the key goes out of scope as soon as the key is open. -/
def openKey (key : String) : RawProgram RedisKey := do
  let keyStr ← RedisString.create key
  let keyInner ← Program.lift (RawOp.openKey keyStr.strInner .read)
  keyStr.drop
  return ⟨keyInner⟩

def isNull (key : RedisKey) : Bool := key.keyInner.isNone

def read (key : RedisKey) : RawM (Option String) := do
  if key.isNull then return none
  else
    let text ← readKey key.keyInner
    return some text

def drop (key : RedisKey) : RawProgram Unit := Program.lift (RawOp.closeKey key.keyInner)

end RedisKey

/-- A key opened for reading and writing, which keeps the string that names it. -/
structure RedisKeyWritable where
  keyInner : Option (Pointer .key)
  keyStr : RedisString

namespace RedisKeyWritable

def openKeyWritable (key : String) : RawProgram RedisKeyWritable := do
  let keyStr ← RedisString.create key
  let keyInner ← Program.lift (RawOp.openKey keyStr.strInner .readWrite)
  return ⟨keyInner, keyStr⟩

def read (key : RedisKeyWritable) : RawM (Option String) := do
  let text ← readKey key.keyInner
  return some text

def isEmpty (key : RedisKeyWritable) : RawM Bool := do
  -- A key without a value is read as the empty text.
  match ← key.read with
  | some text => return text == ""
  | none => return false

def setExpire (key : RedisKeyWritable) (expire : Duration) : RawM Unit := do
  -- The number of milliseconds is cast to a word, and wraps around.
  match ← invokeRaw (.setExpire key.keyInner (Int64.ofInt expire.wholeMilliseconds)) with
  | .ok => pure ()
  | .err => throw (.generic "Error while setting key expire")

/-- The string of the value goes out of scope once it has been set. -/
def write (key : RedisKeyWritable) (val : String) : RawM Unit :=
  Program.inScope (RedisString.create val) RedisString.drop fun valStr => do
    match ← invokeRaw (.stringSet key.keyInner valStr.strInner) with
    | .ok => pure ()
    | .err => throw (.generic "Error while setting key")

/-- The key is closed first, and its fields go out of scope after it. -/
def drop (key : RedisKeyWritable) : RawProgram Unit := do
  Program.lift (RawOp.closeKey key.keyInner)
  key.keyStr.drop

end RedisKeyWritable

end Handled

end RedisCell
