import RedisCell.Redis.Handles

/-! How a server loads the module: the functions that are looked up, and the command it registers. -/

namespace RedisCell

open Interaction

/-- A command of the module as the server calls it. -/
abbrev RedisModuleCmdFunc := List ByteArray → Program RedisOp RedisOp.Answer Status

/-- What a command is registered with: its flags, and where its keys stand among its words. -/
structure Registration where
  name : String
  strflags : String
  firstkey : Int32
  lastkey : Int32
  keystep : Int32
  deriving DecidableEq

namespace Registration

/-- The places of the keys of a command, where a negative last place counts from the end. -/
def places (registration : Registration) (argc : Nat) : List Nat :=
  -- A step is counted from the first key.
  let first := registration.firstkey.toInt
  let last := registration.lastkey.toInt + if registration.lastkey < 0 then argc else 0
  (List.range argc).filter fun place =>
    first ≤ place ∧ place ≤ last ∧ (place - first) % registration.keystep.toInt = 0

/-- The words of a command that are its keys. -/
def keys (registration : Registration) (argv : List ByteArray) : List ByteArray :=
  (registration.places argv.length).filterMap fun place => argv[place]?

/-- The flags of a command are separated by spaces. -/
def flags (registration : Registration) : List String :=
  (registration.strflags.toList.splitOn ' ').map String.ofList

end Registration

/-- The functions that a module calls while it is loaded. -/
inductive LoadOp where
  /-- `RedisModule_GetApi`, which is passed to the module in its context. -/
  | getApi (funcname : String)
  | setModuleAttribs (name : String) (ver apiver : Int32)
  | createCommand (registration : Registration) (cmdfunc : RedisModuleCmdFunc)

/-- What each of them answers: whether there is such a function, and the outcome of a command. -/
def LoadOp.Answer : LoadOp → Type
  | .getApi _ => Bool
  | .setModuleAttribs .. => Unit
  | .createCommand .. => Status

/-- The functions that `RedisModule_Init` looks up, without their common prefix. -/
def moduleFunctions : List String :=
  ["Alloc", "Calloc", "Free", "Realloc", "Strdup", "CreateCommand", "SetModuleAttribs",
   "WrongArity", "ReplyWithLongLong", "ReplyWithError", "ReplyWithSimpleString",
   "ReplyWithArray", "ReplySetArrayLength", "ReplyWithStringBuffer", "ReplyWithString",
   "ReplyWithNull", "ReplyWithCallReply", "ReplyWithDouble", "ReplySetArrayLength",
   "GetSelectedDb", "SelectDb", "OpenKey", "CloseKey", "KeyType", "ValueLength", "ListPush",
   "ListPop", "StringToLongLong", "StringToDouble", "Call", "CallReplyProto", "FreeCallReply",
   "CallReplyInteger", "CallReplyType", "CallReplyLength", "CallReplyArrayElement",
   "CallReplyStringPtr", "CreateStringFromCallReply", "CreateString", "CreateStringFromLongLong",
   "CreateStringFromString", "CreateStringPrintf", "FreeString", "StringPtrLen", "AutoMemory",
   "Replicate", "ReplicateVerbatim", "DeleteKey", "StringSet", "StringDMA", "StringTruncate",
   "GetExpire", "SetExpire", "ZsetAdd", "ZsetIncrby", "ZsetScore", "ZsetRem", "ZsetRangeStop",
   "ZsetFirstInScoreRange", "ZsetLastInScoreRange", "ZsetFirstInLexRange", "ZsetLastInLexRange",
   "ZsetRangeCurrentElement", "ZsetRangeNext", "ZsetRangePrev", "ZsetRangeEndReached", "HashSet",
   "HashGet", "IsKeysPositionRequest", "KeyAtPos", "GetClientId", "PoolAlloc", "CreateDataType",
   "ModuleTypeSetValue", "ModuleTypeGetType", "ModuleTypeGetValue", "SaveUnsigned",
   "LoadUnsigned", "SaveSigned", "LoadSigned", "SaveString", "SaveStringBuffer", "LoadString",
   "LoadStringBuffer", "SaveDouble", "LoadDouble", "SaveFloat", "LoadFloat", "EmitAOF", "Log",
   "LogIOError", "StringAppendBuffer", "RetainString", "StringCompare", "GetContextFromIO",
   "BlockClient", "UnblockClient", "IsBlockedReplyRequest", "IsBlockedTimeoutRequest",
   "GetBlockedClientPrivateData", "AbortBlock", "Milliseconds"]

/-- `REDISMODULE_GET_API`, which looks up one function. -/
def redisModuleGetApi (name : String) : Program LoadOp LoadOp.Answer Bool :=
  Program.lift (LoadOp.getApi ("RedisModule_" ++ name))

/-- Look up some functions, and keep the names of those that the server has. -/
def getApis : List String → Program LoadOp LoadOp.Answer (List String)
  | [] => .ret []
  | name :: rest => do
    let present ← redisModuleGetApi name
    let others ← getApis rest
    return if present then name :: others else others

/-- Call a function through its pointer, which is null unless the function has been found. -/
def throughPointer (found : List String) (name : String) (op : LoadOp) :
    Program LoadOp LoadOp.Answer op.Answer :=
  if name ∈ found then Program.lift op else .abort

/-- `RedisModule_SetModuleAttribs`. -/
def setModuleAttribs (found : List String) (name : String) (ver apiver : Int32) :
    Program LoadOp LoadOp.Answer Unit :=
  throughPointer found "SetModuleAttribs" (.setModuleAttribs name ver apiver)

/-- `create_command`. -/
def createCommand (found : List String) (registration : Registration)
    (cmdfunc : RedisModuleCmdFunc) : Program LoadOp LoadOp.Answer Status :=
  throughPointer found "CreateCommand" (.createCommand registration cmdfunc)

/-- `Export_RedisModule_Init`, with the functions that it has found. -/
def moduleInit (modulename : String) (moduleVersion apiVersion : Int32) :
    Program LoadOp LoadOp.Answer (Status × List String) := do
  -- A lookup that fails is not reported, and leaves a null pointer.
  let found ← getApis moduleFunctions
  setModuleAttribs found modulename moduleVersion apiVersion
  return (.ok, found)

/-- `Throttle_RedisCommand`. -/
def throttleRedisCommand : RedisModuleCmdFunc := throttleCommand.harness

/-- `ThrottleCommand::str_flags`. -/
def ThrottleCommand.strFlags : String := "write"

/-- The arguments that the command is created with, of which the first word is the only key. -/
def throttleRegistration : Registration :=
  ⟨throttleCommand.name, ThrottleCommand.strFlags, 1, 1, 1⟩

/-- `RedisModule_OnLoad`, with the functions that the module may call from then on. -/
def onLoad : Program LoadOp LoadOp.Answer (Status × List String) := do
  match ← moduleInit "redis-cell" 1 1 with
  -- The initialization never reports a failure.
  | (.err, found) => return (.err, found)
  | (.ok, found) =>
    match ← createCommand found throttleRegistration throttleRedisCommand with
    | .err => return (.err, found)
    | .ok => return (.ok, found)

/-- The function of the server that a call goes to, but for the clock. -/
def RawOp.symbol : RawOp → Option String
  | .createString _ => some "CreateString"
  | .freeString _ => some "FreeString"
  | .stringPtrLen _ => some "StringPtrLen"
  | .openKey .. => some "OpenKey"
  | .closeKey _ => some "CloseKey"
  | .stringDma _ => some "StringDMA"
  | .stringSet .. => some "StringSet"
  | .setExpire .. => some "SetExpire"
  | .replicateVerbatim => some "ReplicateVerbatim"
  | .replyWithArray _ => some "ReplyWithArray"
  | .replyWithError _ => some "ReplyWithError"
  | .replyWithLongLong _ => some "ReplyWithLongLong"
  | .replyWithString _ => some "ReplyWithString"
  | .call .. => some "Call"
  | .callReplyType _ => some "CallReplyType"
  | .callReplyInteger _ => some "CallReplyInteger"
  | .callReplyStringPtr _ => some "CallReplyStringPtr"
  | .freeCallReply _ => some "FreeCallReply"
  | .nowUtc => none

end RedisCell
