import RedisCell.Redis.Key

/-! The wrapper that decodes a command's arguments and turns its outcome into a status. -/

namespace RedisCell

open Interaction

/-- A command of the module. -/
structure Command where
  name : String
  run : List String → RedisM Unit

/-- `Redis::reply_array`. -/
def replyArray (len : Int64) : RedisM Unit := do
  let status ← invoke (.replyWithArray len)
  handleStatus status "Could not reply with long"

/-- `Redis::reply_integer`. -/
def replyInteger (integer : Int64) : RedisM Unit := do
  let status ← invoke (.replyWithLongLong integer)
  handleStatus status "Could not reply with longlong"

/-- `Redis::replicate_verbatim`. -/
def replicateVerbatim : RedisM Unit := do
  let status ← invoke .replicateVerbatim
  handleStatus status "Could not replicate verbatim"

/-- `parse_args`: every argument is decoded, up to the first one that is not UTF-8. -/
def parseArgs : List ByteArray → Except CellError (List String)
  | [] => .ok []
  | redisStr :: rest => do
    let arg ← fromUtf8 redisStr
    let args ← parseArgs rest
    return arg :: args

namespace Command

/-- Run a command on decoded arguments, and reply with its error if it has one. -/
def respond (command : Command) (args : List String) : Program RedisOp RedisOp.Answer Status := do
  match ← (command.run args).run with
  | .ok _ => return .ok
  | .error error =>
    .ask (.replyWithError (cString ("Cell error: " ++ error.display))) fun _ => return .err

/-- `Command::harness`, which unwraps the decoded arguments. -/
def harness (command : Command) (argv : List ByteArray) : Program RedisOp RedisOp.Answer Status :=
  -- The error branch is the panic, which no status reports.
  match parseArgs argv with
  | .ok args => command.respond args
  | .error _ => .abort

end Command

end RedisCell
