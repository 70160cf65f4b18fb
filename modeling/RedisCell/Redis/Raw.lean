import RedisCell.Error
import RedisCell.Time.Duration
import RedisCell.Interaction.Program

/-! The calls a command makes to the server it is loaded into. -/

namespace RedisCell

open Interaction

/-- What the server says about a call that may fail. -/
inductive Status where
  | ok
  | err
  deriving DecidableEq, Repr

/-- What a key is opened for. -/
inductive KeyMode where
  | read
  | readWrite
  deriving DecidableEq, Repr

/-- A key as the server hands it out, which names the key and remembers the mode it was opened in. -/
structure RedisModuleKey where
  name : String
  mode : KeyMode
  deriving DecidableEq, Repr

/-- The module functions, and the clock, whose answers a command depends on. -/
inductive RedisOp where
  | openKey (keyname : String) (mode : KeyMode)
  | stringDma (key : Option RedisModuleKey)
  | stringSet (key : Option RedisModuleKey) (str : String)
  /-- The expiry is in milliseconds. -/
  | setExpire (key : Option RedisModuleKey) (expire : Int64)
  | replicateVerbatim
  | replyWithArray (len : Int64)
  | replyWithError (err : String)
  | replyWithLongLong (ll : Int64)
  /-- `OffsetDateTime::now_utc`. -/
  | nowUtc
  deriving DecidableEq

/-- What each call answers, where an absent key is a null pointer. -/
def RedisOp.Answer : RedisOp → Type
  | .openKey .. => Option RedisModuleKey
  | .stringDma _ => ByteArray
  | .stringSet .. => Status
  | .setExpire .. => Status
  | .replicateVerbatim => Status
  | .replyWithArray _ => Status
  | .replyWithError _ => Unit
  | .replyWithLongLong _ => Status
  | .nowUtc => OffsetDateTime

/-- A fallible computation inside the server. -/
abbrev RedisM := ExceptT CellError (Program RedisOp RedisOp.Answer)

/-- Make one call to the server. -/
def invoke (op : RedisOp) : RedisM op.Answer := ExceptT.lift (Program.lift op)

/-- An answered call goes on with its answer. -/
theorem run_invoke {σ : Type} {handle : Handler RedisOp RedisOp.Answer σ} {op : RedisOp}
    {state state' : σ} {answer : op.Answer} (answered : handle op state = (some answer, state')) :
    (invoke op).run.run handle state = (some (.ok answer), state') := by
  -- A call cannot fail by itself.
  rw [invoke, ExceptT.run_lift]
  exact Program.run_ask handle _ answered

/-- `Result::unwrap`, which panics on an error. -/
def unwrap {ε α : Type} : Except ε α → RedisM α
  | .ok value => pure value
  | .error _ => ExceptT.mk .abort

/-- `handle_status`. -/
def handleStatus (status : Status) (message : String) : RedisM Unit :=
  match status with
  | .ok => pure ()
  | .err => throw (.generic message)

/-- The text a C function reads from a pointer, which ends at the first zero byte. -/
def cString (text : String) : String := String.ofList (text.toList.takeWhile (· ≠ Char.ofNat 0))

end RedisCell
