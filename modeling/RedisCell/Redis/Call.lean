import RedisCell.Throttle.Handled
import RedisCell.Text.Signed

/-! Commands that the crate can call itself, and the strings and replies they take and leave. -/

namespace RedisCell

open Interaction

/-- `redis::Reply`, of which arrays and errors are never built. -/
inductive CallReply where
  | array
  | error
  | integer (value : Int64)
  | nil
  | string (text : String)
  | unknown
  deriving DecidableEq, Repr

/-- `Redis::coerce_integer`. -/
def coerceInteger : Except CellError CallReply → Except CellError CallReply
  | .ok (.string s) =>
    match parseI64 s with
    | .ok n => .ok (.integer n)
    | .error _ => .ok (.string s)
  | replyRes => replyRes

/-- A reply is coerced to an integer when it is that integer, or a text of it. -/
theorem coerceInteger_eq_integer_iff (replyRes : Except CellError CallReply) (n : Int64) :
    coerceInteger replyRes = .ok (.integer n) ↔
      replyRes = .ok (.integer n) ∨ ∃ s, replyRes = .ok (.string s) ∧ IsSignedTextOf s n := by
  -- Only the text of an integer is coerced, and everything else is as it was.
  rcases replyRes with error | reply
  · simp [coerceInteger]
  · cases reply with
    | string s =>
      simp only [coerceInteger, ← parseI64_eq_ok_iff]
      cases read : parseI64 s <;> simp [read]
    | _ => simp [coerceInteger]

/-- A reply that has been coerced is not changed again. -/
theorem coerceInteger_coerceInteger (replyRes : Except CellError CallReply) :
    coerceInteger (coerceInteger replyRes) = coerceInteger replyRes := by
  -- What has been coerced is no text of an integer any more.
  rcases replyRes with error | reply
  · rfl
  · cases reply with
    | string s =>
      cases read : parseI64 s <;> simp [coerceInteger, read]
    | _ => rfl

namespace Handled

/-- `manifest_redis_reply`. -/
def manifestRedisReply (reply : Option (Pointer .callReply)) : RawM CallReply := do
  match ← invokeRaw (.callReplyType reply) with
  | .integer =>
    let value ← invokeRaw (.callReplyInteger reply)
    return .integer value
  | .nil => return .nil
  | .string =>
    let bytes ← invokeRaw (.callReplyStringPtr reply)
    let text ← fromByteString bytes
    return .string text
  | .unknown => return .unknown
  | .error => throw (.generic "Redis replied with an error.")
  | .array => throw (.generic "Don't yet handle Redis type: Array")

/-- The strings of the arguments of a call, in their order. -/
def createStrings : List String → RawProgram (List RedisString)
  | [] => .ret []
  | s :: rest => do
    let str ← RedisString.create s
    let strs ← createStrings rest
    return str :: strs

/-- Strings that go out of scope together are dropped in their order. -/
def dropStrings : List RedisString → RawProgram Unit
  | [] => .ret ()
  | str :: rest => do
    str.drop
    dropStrings rest

/-- The rest of a call: its reply is read and then freed, and the command is replicated. -/
def manifestCall (rawReply : Option (Pointer .callReply)) : RawM CallReply := ExceptT.mk do
  let replyRes ← (manifestRedisReply rawReply).run
  Program.lift (RawOp.freeCallReply rawReply)
  match ← Program.lift RawOp.replicateVerbatim with
  | .ok => return replyRes
  | .err => return .error (.generic "Unexpected replication response")

/-- `Redis::call`. -/
def call (command : String) (args : List String) : RawM CallReply :=
  Program.inScope (createStrings args) dropStrings fun terminatedArgs => do
    let format := String.ofList (List.replicate args.length 's')
    let pointers := terminatedArgs.map RedisString.strInner
    -- There are bindings for one, two, and three arguments.
    if 1 ≤ args.length ∧ args.length ≤ 3 then
      let rawReply ← invokeRaw (.call (cString command) format pointers)
      manifestCall rawReply
    else throw (.generic "Can't support that many CALL arguments")

/-- `Redis::reply_string`. -/
def replyString (message : String) : RawM Unit :=
  Program.inScope (RedisString.create message) RedisString.drop fun redisStr => do
    match ← invokeRaw (.replyWithString redisStr.strInner) with
    | .ok => pure ()
    | .err => throw (.generic "Could not reply with string")

variable {held left : Multiset Handle}

/-- The pointers of some strings. -/
def stringHandles (strs : List RedisString) : List Handle := strs.map fun str => str.strInner.held

/-- The strings that are created are added. -/
theorem createStrings_owns (args : List String) : (createStrings args).Owns RawOp.ownership
    (fun strs left => left = held + ↑(stringHandles strs)) held := by
  -- The strings are added one by one.
  induction args generalizing held with
  | nil => exact (Multiset.add_zero held).symm
  | cons s rest ih =>
    refine Program.Conforms.bind (RedisString.create_owns s) fun str left adds => ?_
    refine Program.Conforms.bind ih fun strs last more => ?_
    show last = held + ↑(str.handles ++ stringHandles strs)
    rw [more, adds, Multiset.add_assoc, Multiset.coe_add]

/-- Strings are dropped one after the other. -/
theorem dropStrings_owns {strs : List RedisString} (adds : left = held + ↑(stringHandles strs)) :
    (dropStrings strs).Owns RawOp.ownership (fun _ last => last = held) left := by
  -- The induction is on the strings.
  induction strs generalizing left with
  | nil => exact adds.trans (Multiset.add_zero held)
  | cons str rest ih =>
    -- The first string releases its own pointer, and leaves those of the others.
    have both : left = held + ↑(stringHandles rest) + ↑str.handles := by
      rw [adds, Multiset.add_assoc, Multiset.add_comm (stringHandles rest : Multiset Handle),
        Multiset.coe_add]
      rfl
    exact Program.Conforms.bind (RedisString.drop_owns both) fun _ _ fewer => ih fewer

/-- Reading a reply touches its pointer only. -/
theorem manifestRedisReply_neutral {reply : Option (Pointer .callReply)}
    (inside : (⟨.callReply, reply⟩ : Handle) ∈ held) :
    (manifestRedisReply reply).run.Neutral RawOp.ownership held := by
  -- The reply is held throughout, and only looked at.
  have touches : ∀ handle ∈ [(⟨.callReply, reply⟩ : Handle)], handle ∈ held := by simpa using inside
  refine Program.Neutral.except_bind (invokeRaw_neutral touches rfl fun _ => rfl) fun type => ?_
  cases type with
  | integer =>
    exact Program.Neutral.except_bind (invokeRaw_neutral touches rfl fun _ => rfl) fun _ => rfl
  | string =>
    refine Program.Neutral.except_bind (invokeRaw_neutral touches rfl fun _ => rfl) fun bytes => ?_
    exact Program.Neutral.except_bind (fromByteString_neutral bytes) fun _ => rfl
  | nil => rfl
  | unknown => rfl
  | error => rfl
  | array => rfl

/-- The rest of a call releases its reply, even a null one, whatever came of reading it. -/
theorem manifestCall_owns {reply : Option (Pointer .callReply)}
    (adds : left = held + ↑[(⟨.callReply, reply⟩ : Handle)]) :
    (manifestCall reply).run.Owns RawOp.ownership (fun _ last => last = held) left := by
  -- The reply is held while it is read, and is freed afterwards.
  have inside := mem_of_added adds (List.mem_singleton.mpr rfl)
  refine Program.Conforms.bind (manifestRedisReply_neutral inside) fun replyRes last same => ?_
  rw [← same] at adds
  refine Program.Conforms.bind (Program.owns_release adds (by simp [RawOp.ownership]) fun _ => rfl)
    fun _ freed nothing => ?_
  rw [nothing]
  refine Program.Conforms.bind (Program.Neutral.lift (by simp [RawOp.ownership]) rfl fun _ => rfl)
    fun status _ same => ?_
  cases status <;> exact same

/-- A call gives back the strings of its arguments and its reply, wherever it ends. -/
theorem call_neutral (command : String) (args : List String) :
    (call command args).run.Neutral RawOp.ownership held := by
  -- The strings of the arguments are dropped last, around everything else.
  refine Program.Neutral.inScope (createStrings_owns args) ?_ fun _ _ => dropStrings_owns
  intro strs left created
  simp only
  split
  · -- The strings are held while the command is called.
    change (Program.lift (RawOp.call (cString command) _ _) >>= fun reply =>
      (manifestCall reply).run).Owns RawOp.ownership _ _
    refine Program.Conforms.bind (Program.owns_acquire ?_ rfl) fun reply last adds =>
      manifestCall_owns adds
    intro handle member
    have named : (strs.map RedisString.strInner).map Pointer.held = stringHandles strs :=
      List.map_map
    exact mem_of_added created (named ▸ member)
  · -- Any other number of arguments is refused before the command is called.
    rfl

/-- Replying with a text frees the string of the text, whether or not the reply was accepted. -/
theorem replyString_neutral (message : String) :
    (replyString message).run.Neutral RawOp.ownership held := by
  -- The string lives as long as the reply that is made of it.
  refine Program.Neutral.inScope (RedisString.create_owns message) ?_ fun _ _ => RedisString.drop_owns
  intro redisStr left adds
  refine Program.Neutral.except_bind (invokeRaw_neutral ?_ rfl fun _ => rfl) fun status => ?_
  · intro handle member
    exact mem_of_added adds member
  · cases status <;> rfl

/--
Whatever the server answers, a call touches and releases only the pointers it holds, and once it has
returned it has released each string and each reply as often as it was handed out.
-/
theorem call_gives_back {σ : Type} (handle : Handler RawOp RawOp.Answer σ) (state : σ)
    (command : String) (args : List String) :
    let exchanges := (call command args).run.exchanges handle state
    ∃ left, RawOp.ownership.Ledger 0 exchanges left ∧
      ∀ result, ((call command args).run.run handle state).1 = some result →
        left = 0 ∧ ∀ pointer, (RawOp.ownership.released exchanges).count pointer =
          (RawOp.ownership.acquired exchanges).count pointer :=
  -- The command starts with nothing held.
  (call_neutral command args).gives_back handle state

end Handled

end RedisCell
