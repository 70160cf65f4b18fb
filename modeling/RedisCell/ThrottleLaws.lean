import RedisCell.Throttle
import RedisCell.Cell.RedisStoreLaws

/-! What one command does to its key, and what it replies. -/

namespace RedisCell

open Interaction

namespace ThrottleCommand

/-- The parts of the reply to a call. -/
def replies (throttled : Bool) (result : RateLimitResult) : List Reply :=
  [.array 5, .integer (if throttled then 1 else 0), .integer result.limit,
    .integer result.remaining, .integer (roundedSeconds result.retryAfter),
    .integer (roundedSeconds result.resetAfter)]

end ThrottleCommand

open ThrottleCommand

namespace Keyspace

/-- Reply to a call and replicate its command. -/
def answered (keyspace : Keyspace) (throttled : Bool) (result : RateLimitResult) : Keyspace :=
  { keyspace with
    replies := keyspace.replies ++ ThrottleCommand.replies throttled result
    replications := keyspace.replications + 1 }

/-- An answer adds its five integers to what has been sent. -/
@[simp] theorem answered_replies (keyspace : Keyspace) (throttled : Bool)
    (result : RateLimitResult) :
    (keyspace.answered throttled result).replies =
      keyspace.replies ++ ThrottleCommand.replies throttled result := rfl

/-- Replies and replication always succeed. -/
theorem run_reply (keyspace : Keyspace) (throttled : Bool) (result : RateLimitResult) :
    (ThrottleCommand.reply throttled result).run.run Keyspace.handle keyspace =
      (some (.ok ()), keyspace.answered throttled result) := by
  -- Each part is appended to those before it.
  have parts : ((((((keyspace.reply (.array 5)).reply (.integer (if throttled then 1 else 0))).reply
      (.integer result.limit)).reply (.integer result.remaining)).reply
        (.integer (roundedSeconds result.retryAfter))).reply
          (.integer (roundedSeconds result.resetAfter))).replies =
      keyspace.replies ++ ThrottleCommand.replies throttled result := by
    simp [Keyspace.reply, ThrottleCommand.replies]
  rw [answered, ← parts]
  rfl

/-- One command, before its status is reported. -/
def throttle (keyspace : Keyspace) (args : List String) :
    Option (Except CellError Unit) × Keyspace :=
  (run args).run.run Keyspace.handle keyspace

section Throttle

variable {keyspace keyspace' : Keyspace} {args : List String} {parsed : Arguments}
  {error : CellError}

/-- A command whose arguments cannot be read changes nothing. -/
theorem throttle_unparsed (unread : arguments args = .error error) :
    keyspace.throttle args = (some (.error error), keyspace) := by
  -- The arguments are read before the store is opened.
  have failed : (ExceptT.mk (pure (arguments args)) : RedisM Arguments).run.run Keyspace.handle
      keyspace = (some (.error error), keyspace) := by
    rw [unread]
    rfl
  exact Program.run_bind_error failed

/-- A command continues with the call its arguments describe. -/
theorem throttle_parsed (read : arguments args = .ok parsed) :
    keyspace.throttle args =
      (InternalRedisStore.carryOut (parsed.limiter.rateLimit parsed.key parsed.quantity) >>=
        fun answer => ThrottleCommand.reply answer.1 answer.2).run.run Keyspace.handle keyspace := by
  -- Reading the arguments asks nothing of the server.
  have succeeded : (ExceptT.mk (pure (arguments args)) : RedisM Arguments).run.run Keyspace.handle
      keyspace = (some (.ok parsed), keyspace) := by
    rw [read]
    rfl
  exact Program.run_bind_ok succeeded

/-- A call that returns a result is answered and replicated. -/
theorem throttle_ok {throttled : Bool} {result : RateLimitResult}
    (read : arguments args = .ok parsed)
    (called : keyspace.rateLimit parsed.limiter parsed.key parsed.quantity =
      (some (.ok (throttled, result)), keyspace')) :
    keyspace.throttle args = (some (.ok ()), keyspace'.answered throttled result) := by
  -- The reply is made of what the call returned.
  rw [rateLimit] at called
  rw [throttle_parsed read, Program.run_bind_ok called]
  exact run_reply keyspace' throttled result

/-- A call that fails fails its command. -/
theorem throttle_error (read : arguments args = .ok parsed)
    (called : keyspace.rateLimit parsed.limiter parsed.key parsed.quantity =
      (some (.error error), keyspace')) :
    keyspace.throttle args = (some (.error error), keyspace') := by
  -- An error goes past the reply.
  rw [throttle_parsed read]
  exact Program.run_bind_error called

/-- A call that panics takes its command with it. -/
theorem throttle_abort (read : arguments args = .ok parsed)
    (called : keyspace.rateLimit parsed.limiter parsed.key parsed.quantity = (none, keyspace')) :
    keyspace.throttle args = (none, keyspace') := by
  -- A panic goes past the reply.
  rw [throttle_parsed read]
  exact Program.run_bind_abort called

end Throttle

end Keyspace

/-- One command on a server. -/
def Server.throttle {σ : Type} (server : Server σ) (state : σ) (args : List String) :
    Option (Except CellError Unit) × σ :=
  (run args).run.run server.handle state

/-- A server runs a command as its keyspace does. -/
theorem Server.throttle_view {σ : Type} (server : Server σ) (state : σ) (args : List String) :
    (server.view state).throttle args =
      ((server.throttle state args).1, server.view (server.throttle state args).2) :=
  server.documented.run _ _

end RedisCell
