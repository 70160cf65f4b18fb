import RedisCell.Redis.Load
import RedisCell.Text.OneLine
import RedisCell.Throttle.Grammar
import RedisCell.Cell.RedisWrites

/-! The command keeps to what the module has registered, whatever the server answers. -/

namespace RedisCell

open Interaction ThrottleCommand

/-- How far a command has come with its reply. -/
inductive Dialogue where
  | silent
  /-- An array has been announced, of which so many elements are still due. -/
  | owing (count : Nat)
  | replicated
  | refused
  deriving DecidableEq, Repr

namespace Registration

variable (registration : Registration) (argv : List ByteArray)

/-- A key that has been handed out for one of the keys of a command, and not as a null pointer. -/
def Names (key : Option RedisModuleKey) (mode : KeyMode) : Prop :=
  ∃ name : String, key = some ⟨name, mode⟩ ∧ name.toByteArray ∈ registration.keys argv

/-- What an error may tell: one line, unless it quotes a word of the command. -/
def Tolerates (message : String) : Prop :=
  OneLine message ∨ ∃ word : String, word.toByteArray ∈ argv ∧
    message = "Store error: Couldn't parse as integer: " ++ word

/-- What a command may ask before it replies: it uses its own keys, and writes if it is flagged so. -/
def Permits : RedisOp → Prop
  | .openKey keyname mode => keyname.toByteArray ∈ registration.keys argv ∧
    (mode = .readWrite → "write" ∈ registration.flags)
  | .stringDma key => ∃ mode, registration.Names argv key mode
  | .stringSet key _ => registration.Names argv key .readWrite
  | .setExpire key _ => registration.Names argv key .readWrite
  | .replyWithArray len => 0 ≤ len.toInt
  | .replyWithError err => ∃ message, err = cString ("Cell error: " ++ message) ∧ Tolerates argv message
  | .nowUtc => True
  | .replicateVerbatim => False
  | .replyWithLongLong _ => False

/--
The interface of the server. A command that has been registered uses its own keys and then replies,
either with one error or with the elements of one array, after which it is replicated. The server
hands out the keys that are asked for, where one that is to be written is never null, and it takes
every reply.
-/
def interface : Contract RedisOp RedisOp.Answer Dialogue where
  Requires
    | .silent, op => registration.Permits argv op
    | .owing (_ + 1), .replyWithLongLong _ => True
    | .owing 0, .replicateVerbatim => True
    | _, _ => False
  Ensures
    | _, .openKey keyname .read, key => key = none ∨ key = some ⟨keyname, .read⟩
    | _, .openKey keyname .readWrite, key => key = some ⟨keyname, .readWrite⟩
    | _, .replicateVerbatim, status => status = .ok
    | _, .replyWithArray _, status => status = .ok
    | _, .replyWithLongLong _, status => status = .ok
    | _, _, _ => True
  after
    | _, .replyWithArray len, _ => .owing len.toInt.toNat
    | .owing count, .replyWithLongLong _, _ => .owing (count - 1)
    | _, .replicateVerbatim, _ => .replicated
    | _, .replyWithError _, _ => .refused
    | dialogue, _, _ => dialogue

end Registration

/-- A status and the end of the dialogue that it belongs to. -/
def Dialogue.Concludes (status : Status) (dialogue : Dialogue) : Prop :=
  match status with
  | .ok => dialogue = .replicated
  | .err => dialogue = .refused

/-- A result meets a condition, or it is an error of one line. -/
def Meets {α : Type} (condition : α → Prop) : Except CellError α → Prop
  | .ok value => condition value
  | .error error => OneLine error.display

/-- A result that may be any value, or else an error of one line. -/
abbrev Plain {α : Type} (result : Except CellError α) : Prop := Meets (fun _ => True) result

/-- What a limiter keeps to: it asks about one key only, and a store tells its errors in one line. -/
def aboutKey (key : String) : Contract StoreOp StoreOp.Answer Unit where
  Requires
    | _, .getWithTime other => other = key
    | _, .compareAndSwapWithTtl other _ _ _ => other = key
    | _, .setIfNotExistsWithTtl other _ _ => other = key
  Ensures
    | _, .getWithTime _, answer => Plain answer
    | _, .compareAndSwapWithTtl .., answer => Plain answer
    | _, .setIfNotExistsWithTtl .., answer => Plain answer
  after _ _ _ := ()

namespace RateLimiter

variable (limiter : RateLimiter) (key : String)

/-- A pass is plain about its key, if what it goes on to is. -/
theorem iteration_conforms (increment : Duration) {retry : StoreM Settled}
    (later : retry.run.Conforms (aboutKey key) (fun result _ => Plain result) ()) :
    (limiter.iteration key increment retry).run.Conforms (aboutKey key)
      (fun result _ => Plain result) () := by
  -- The pass reads its key, and then it is refused or updates the same key.
  rw [iteration_eq]
  have read : (getWithTime key).run.Conforms (aboutKey key) (fun result _ => Plain result) () :=
    ⟨rfl, fun _ plain => plain⟩
  refine read.except_bind (fun _ _ plain => plain) fun read _ _ => ?_
  obtain ⟨tatVal, now⟩ := read
  simp only
  split
  · trivial
  · have updates : (update key increment tatVal now).run.Conforms (aboutKey key)
        (fun result _ => Plain result) () := by
      -- A missing key is set, and a present one is swapped.
      cases tatVal <;> exact ⟨rfl, fun _ plain => plain⟩
    refine updates.except_bind (fun _ _ plain => plain) fun updated _ _ => ?_
    split
    · trivial
    · exact later

/-- Every attempt is plain about the key of the call. -/
theorem attempts_conforms (increment : Duration) (left : Nat) :
    (limiter.attempts key increment left).run.Conforms (aboutKey key)
      (fun result _ => Plain result) () := by
  -- The last attempt goes on to fail for contention, and each earlier one to the next.
  induction left with
  | zero =>
    refine limiter.iteration_conforms key increment ?_
    exact show OneLine _ from oneLine_generic (by decide)
  | succ left ih => exact limiter.iteration_conforms key increment ih

/-- A call asks about its key only, and fails with one line, if the store does. -/
theorem rateLimit_conforms (quantity : Int64) :
    (limiter.rateLimit key quantity).run.Conforms (aboutKey key)
      (fun result _ => Plain result) () := by
  unfold rateLimit
  -- A limiter of no rate is told so without asking anything.
  split
  · exact show OneLine _ from oneLine_generic (by decide)
  · exact (limiter.attempts_conforms key _ _).except_bind (fun _ _ plain => plain)
      fun _ _ _ => trivial

end RateLimiter

namespace Registration

/--
A part of a command conforms to the interface and has not replied when it ends, and its result meets
a condition.
-/
def Yields {α : Type} (registration : Registration) (argv : List ByteArray) (condition : α → Prop)
    (program : RedisM α) : Prop :=
  program.run.Conforms (registration.interface argv)
    (fun result dialogue => Meets condition result ∧ dialogue = .silent) .silent

/-- The key of a call is one of those that the command has declared, which may be written. -/
structure Declares (registration : Registration) (argv : List ByteArray) (name : String) :
    Prop where
  key : name.toByteArray ∈ registration.keys argv
  writes : "write" ∈ registration.flags

variable {registration : Registration} {argv : List ByteArray} {name : String} {α β : Type}
  {condition : α → Prop}

/-- The declared key is named by what is handed out for it. -/
theorem Declares.names (declares : registration.Declares argv name) (mode : KeyMode) :
    registration.Names argv (some ⟨name, mode⟩) mode :=
  ⟨name, rfl, declares.key⟩

/-- One call yields what its honest answers meet. -/
theorem yields_invoke (op : RedisOp) (condition : op.Answer → Prop)
    (permitted : registration.Permits argv op)
    (silent : ∀ answer, (registration.interface argv).after .silent op answer = .silent)
    (answers : ∀ answer, (registration.interface argv).Ensures .silent op answer →
      condition answer) : registration.Yields argv condition (invoke op) := by
  -- A call returns what it is answered.
  unfold Yields
  rw [invoke, ExceptT.run_lift]
  exact ⟨permitted, fun answer ensured => ⟨answers answer ensured, silent answer⟩⟩

/-- A value that meets the condition is yielded at once. -/
theorem yields_pure {value : α} (holds : condition value) :
    registration.Yields argv condition (pure value) := ⟨holds, rfl⟩

/-- A part may fail with one line. -/
theorem yields_throw {error : CellError} (line : OneLine error.display) :
    registration.Yields argv condition (throw error) := ⟨line, rfl⟩

/-- Parts follow each other, each from what the one before has yielded. -/
theorem Yields.bind {program : RedisM α} {next : α → RedisM β} {condition' : β → Prop}
    (first : registration.Yields argv condition program)
    (rest : ∀ value, condition value → registration.Yields argv condition' (next value)) :
    registration.Yields argv condition' (program >>= next) := by
  -- The value that has been yielded meets the condition, and nothing has been sent.
  refine Program.Conforms.except_bind first (fun _ _ failed => failed) ?_
  rintro value last ⟨holds, rfl⟩
  exact rest value holds

/-- A part whose value does not matter. -/
abbrev Quiet (registration : Registration) (argv : List ByteArray) (program : RedisM α) : Prop :=
  registration.Yields argv (fun _ => True) program

/-- After a quiet part the others go on with any value. -/
theorem Quiet.bind {program : RedisM α} {next : α → RedisM β} {condition' : β → Prop}
    (first : registration.Quiet argv program)
    (rest : ∀ value, registration.Yields argv condition' (next value)) :
    registration.Yields argv condition' (program >>= next) :=
  Yields.bind first fun value _ => rest value

/-- A program that has returned sends nothing. -/
theorem quiet_pure (value : α) : registration.Quiet argv (pure value) := yields_pure trivial

/-- The bytes of a key that has been handed out are read, and may not be text. -/
theorem quiet_readKey {key : Option RedisModuleKey} {mode : KeyMode}
    (names : registration.Names argv key mode) : registration.Quiet argv (readKey key) := by
  -- The pointer was handed out, so it may be read.
  refine Quiet.bind (yields_invoke (.stringDma key) _ ⟨mode, names⟩ (fun _ => rfl) fun _ _ => trivial)
    fun bytes => ?_
  refine show Plain (fromUtf8 bytes) ∧ Dialogue.silent = .silent from ⟨?_, rfl⟩
  -- Bytes that are no text are told as an error of one line.
  cases decoded : fromUtf8 bytes with
  | ok text => trivial
  | error error => exact oneLine_of_fromUtf8 decoded

section Writable

variable {key : RedisKeyWritable}

/-- A key that is opened for writing is handed out. -/
theorem yields_openKeyWritable (declares : registration.Declares argv name) :
    registration.Yields argv (fun key => registration.Names argv key.keyInner .readWrite)
      (RedisKeyWritable.openKeyWritable name) := by
  -- The key is declared, and the command is flagged for writing.
  refine (yields_invoke (.openKey name .readWrite)
    (fun key => registration.Names argv key .readWrite) ⟨declares.key, fun _ => declares.writes⟩
    (fun _ => rfl) ?_).bind fun key names => yields_pure names
  -- An honest server opens the key that was named.
  rintro answer rfl
  exact declares.names .readWrite

/-- Reading an opened key sends nothing. -/
theorem quiet_read (names : registration.Names argv key.keyInner .readWrite) :
    registration.Quiet argv key.read :=
  Quiet.bind (quiet_readKey names) fun _ => quiet_pure _

/-- Asking whether a key is empty sends nothing. -/
theorem quiet_isEmpty (names : registration.Names argv key.keyInner .readWrite) :
    registration.Quiet argv key.isEmpty := by
  -- The text is compared in memory.
  refine Quiet.bind (quiet_read names) fun text => ?_
  cases text <;> exact quiet_pure _

/-- Setting an expiry sends nothing. -/
theorem quiet_setExpire (names : registration.Names argv key.keyInner .readWrite)
    (expire : Duration) : registration.Quiet argv (key.setExpire expire) := by
  -- A refused expiry is thrown before anything is sent.
  refine Quiet.bind (yields_invoke _ _ names (fun _ => rfl) fun _ _ => trivial) fun status => ?_
  cases status
  · exact quiet_pure _
  · exact yields_throw (oneLine_generic (by decide))

/-- Writing a key sends nothing. -/
theorem quiet_write (names : registration.Names argv key.keyInner .readWrite) (val : String) :
    registration.Quiet argv (key.write val) := by
  -- A refused write is thrown before anything is sent.
  refine Quiet.bind (yields_invoke _ _ names (fun _ => rfl) fun _ _ => trivial) fun status => ?_
  cases status
  · exact quiet_pure _
  · exact yields_throw (oneLine_generic (by decide))

end Writable

/-- A key that is opened for reading is handed out, unless it is absent. -/
theorem yields_openKey (declares : registration.Declares argv name) :
    registration.Yields argv
      (fun key => key.isNull = false → registration.Names argv key.keyInner .read)
      (RedisKey.openKey name) := by
  -- The key is declared, which is all that reading needs.
  refine (yields_invoke (.openKey name .read)
    (fun key => key.isNone = false → registration.Names argv key .read) ⟨declares.key, by simp⟩
    (fun _ => rfl) ?_).bind fun key names => yields_pure names
  -- An honest server opens the key that was named, or answers that there is none.
  rintro answer (rfl | rfl)
  · simp
  · exact fun _ => declares.names .read

/-- A null pointer is not read. -/
theorem quiet_readUnlessNull {key : RedisKey}
    (names : key.isNull = false → registration.Names argv key.keyInner .read) :
    registration.Quiet argv key.read := by
  unfold RedisKey.read
  -- A null key is not read.
  split
  · exact quiet_pure _
  · rename_i present
    exact Quiet.bind (quiet_readKey (names (by simpa using present))) fun _ => quiet_pure _

/-- A swap uses its key only, wherever it ends. -/
theorem quiet_compareAndSwapWithTtl (declares : registration.Declares argv name)
    (old new : UInt64) (ttl : Duration) :
    registration.Quiet argv (InternalRedisStore.compareAndSwapWithTtl name old new ttl) := by
  -- The key is opened and read, and then compared in memory.
  refine (yields_openKeyWritable declares).bind fun key names => ?_
  refine Quiet.bind (quiet_read names) fun text => ?_
  cases text with
  | none => exact quiet_pure _
  | some text =>
    simp only
    split
    · exact quiet_pure _
    · cases parseU64 text with
      | error kind => exact yields_throw kind.oneLine_display
      | ok value =>
        -- Only the count that is expected is replaced.
        simp only
        split
        · refine Quiet.bind (quiet_write names _) fun _ => ?_
          exact Quiet.bind (quiet_setExpire names ttl) fun _ => quiet_pure _
        · exact quiet_pure _

/-- A set uses its key only, wherever it ends. -/
theorem quiet_setIfNotExistsWithTtl (declares : registration.Declares argv name)
    (value : UInt64) (ttl : Duration) :
    registration.Quiet argv (InternalRedisStore.setIfNotExistsWithTtl name value ttl) := by
  -- The key is opened and asked whether it is empty.
  refine (yields_openKeyWritable declares).bind fun key names => ?_
  refine Quiet.bind (quiet_isEmpty names) fun empty => ?_
  -- The expiry is set whether or not the key was written.
  have expires : ∀ value : Bool, registration.Quiet argv ((pure value : RedisM Bool) >>= fun res => do
      key.setExpire ttl
      return res) := fun value =>
    Quiet.bind (quiet_pure value) fun _ => Quiet.bind (quiet_setExpire names ttl) fun _ =>
      quiet_pure _
  cases empty with
  | false => exact expires false
  | true => exact Quiet.bind (quiet_write names _) fun _ => expires true

/-- A read uses its key only. -/
theorem quiet_getWithTime (declares : registration.Declares argv name) :
    registration.Quiet argv (InternalRedisStore.getWithTime name) := by
  -- The key is opened and read, and the clock is asked at last.
  refine (yields_openKey declares).bind fun key names => ?_
  refine Quiet.bind (quiet_readUnlessNull names) fun text => Quiet.bind ?_ fun value => ?_
  · cases text with
    | none => exact quiet_pure _
    | some text =>
      rw [Option.mapM_some]
      refine Quiet.bind ?_ fun _ => quiet_pure _
      -- A text that is no count panics.
      cases parseU64 text with
      | error kind => trivial
      | ok value => exact quiet_pure _
  · exact Quiet.bind (yields_invoke .nowUtc _ trivial (fun _ => rfl) fun _ _ => trivial) fun _ =>
      quiet_pure _

/-- What a limiter asks about the declared key is carried out quietly, and answered plainly. -/
theorem perform_conforms (declares : registration.Declares argv name) {op : StoreOp}
    (asked : (aboutKey name).Requires () op) :
    (InternalRedisStore.perform op).Conforms (registration.interface argv)
      (fun answer dialogue => (aboutKey name).Ensures () op answer ∧ dialogue = .silent) .silent := by
  -- Each operation is about the one key that the limiter was given.
  cases op <;> cases asked
  · exact quiet_getWithTime declares
  · exact quiet_compareAndSwapWithTtl declares _ _ _
  · exact quiet_setIfNotExistsWithTtl declares _ _

/-- A call of a limiter on the declared key is carried out quietly. -/
theorem quiet_rateLimit (declares : registration.Declares argv name) (limiter : RateLimiter)
    (quantity : Int64) :
    registration.Quiet argv (InternalRedisStore.carryOut (limiter.rateLimit name quantity)) := by
  -- Each operation that the limiter asks for is carried out quietly.
  have carries : ∀ (_ : Unit) (dialogue : Dialogue) (op : StoreOp), dialogue = .silent →
      (aboutKey name).Requires () op →
      (InternalRedisStore.perform op).Conforms (registration.interface argv)
        (fun answer last => (aboutKey name).Ensures () op answer ∧ last = .silent) dialogue := by
    rintro _ dialogue op rfl asked
    exact perform_conforms declares asked
  -- The limiter asks for its own key alone, so its translation is as quiet.
  have carried := (limiter.rateLimit_conforms name quantity).translate
    (fun _ dialogue => dialogue = Dialogue.silent) carries rfl
  refine carried.mono fun result last ended => ?_
  obtain ⟨_, plain, quiet⟩ := ended
  exact ⟨plain, quiet⟩

/-- A part of a reply succeeds, and takes the dialogue from one stage to the next one. -/
def Tells (registration : Registration) (argv : List ByteArray) (dialogue next : Dialogue)
    (part : RedisM Unit) : Prop :=
  part.run.Conforms (registration.interface argv)
    (fun result last => result = .ok () ∧ last = next) dialogue

/-- A call whose status is that of success tells what it leads to. -/
theorem tells_invoke {dialogue next : Dialogue} (op : RedisOp) (status : op.Answer → Status)
    (message : String) (required : (registration.interface argv).Requires dialogue op)
    (accepted : ∀ answer, (registration.interface argv).Ensures dialogue op answer →
      status answer = .ok ∧ (registration.interface argv).after dialogue op answer = next) :
    registration.Tells argv dialogue next
      (invoke op >>= fun answer => handleStatus (status answer) message) := by
  unfold Tells
  rw [invoke, ExceptT.run_bind, ExceptT.run_lift]
  -- The error for another status is not reached at a server that takes every reply.
  refine ⟨required, fun answer ensured => ?_⟩
  obtain ⟨ok, reached⟩ := accepted answer ensured
  show (handleStatus (status answer) message).run.Conforms _ _ _
  rw [ok, reached]
  exact ⟨rfl, rfl⟩

/-- Parts of a reply follow each other. -/
theorem Tells.bind {dialogue middle next : Dialogue} {part : RedisM Unit} {rest : Unit → RedisM Unit}
    (first : registration.Tells argv dialogue middle part)
    (others : registration.Tells argv middle next (rest ())) :
    registration.Tells argv dialogue next (part >>= rest) := by
  refine Program.Conforms.except_bind first ?_ ?_
  · -- A part that only tells has no error.
    rintro error last ⟨⟨⟩, _⟩
  · rintro value last ⟨_, rfl⟩
    exact others

/-- An integer pays one of the elements that a reply owes. -/
theorem tells_replyInteger (integer : Int64) (count : Nat) :
    registration.Tells argv (.owing (count + 1)) (.owing count) (replyInteger integer) :=
  tells_invoke (.replyWithLongLong integer) id _ trivial fun _ ok => ⟨ok, rfl⟩

/-- The whole reply announces as many integers as it tells, and is replicated after the last one. -/
theorem tells_reply (throttled : Bool) (result : RateLimitResult) :
    registration.Tells argv .silent .replicated (ThrottleCommand.reply throttled result) := by
  -- The reply is an array, its five integers, and the replication.
  have array : registration.Tells argv .silent (.owing 5) (replyArray 5) :=
    tells_invoke (.replyWithArray 5) id _ (show 0 ≤ (5 : Int64).toInt by decide) fun _ ok => ⟨ok, rfl⟩
  have replicate : registration.Tells argv (.owing 0) .replicated replicateVerbatim :=
    tells_invoke .replicateVerbatim id _ trivial fun _ ok => ⟨ok, rfl⟩
  -- Each integer pays one of the five elements that the array owes.
  refine array.bind ?_
  refine (tells_replyInteger _ 4).bind ((tells_replyInteger _ 3).bind ?_)
  refine (tells_replyInteger _ 2).bind ((tells_replyInteger _ 1).bind ?_)
  exact (tells_replyInteger _ 0).bind replicate

/-- Words that are refused are answered with one line, unless one of them is quoted. -/
theorem tolerates_of_refused {words : List String} {error : CellError}
    (decoded : words.map String.toByteArray = argv) (refused : arguments words = .error error) :
    Tolerates argv error.display := by
  obtain ⟨message, rfl, refuses⟩ := refuses_of_arguments refused
  cases refuses with
  -- The usage is a fixed line.
  | usage few many => exact Or.inl (oneLine_generic (by decide))
  -- The other message quotes a word of the command.
  | @numeral own key word earlier later length fine bad =>
    refine Or.inr ⟨word, ?_, ?_⟩
    · rw [← decoded]
      exact List.mem_map_of_mem (by simp)
    · rfl

/-- The whole command ends in success with its reply, or in an error before it has replied. -/
theorem run_conforms {words : List String} (decoded : words.map String.toByteArray = argv)
    (declares : ∀ args, arguments words = .ok args → registration.Declares argv args.key) :
    (ThrottleCommand.run words).run.Conforms (registration.interface argv)
      (fun result dialogue => result = .ok () ∧ dialogue = .replicated ∨
        (∃ error, result = .error error ∧ Tolerates argv error.display) ∧ dialogue = .silent)
      .silent := by
  -- Reading the words asks nothing of the server.
  have read : (ExceptT.mk (pure (arguments words)) : RedisM Arguments).run.Conforms
      (registration.interface argv)
      (fun result dialogue => result = arguments words ∧ dialogue = .silent) .silent := ⟨rfl, rfl⟩
  -- The words are refused before anything is asked, and the limiter fails before any reply.
  refine read.except_bind ?_ ?_
  · rintro error last ⟨refused, quiet⟩
    refine Or.inr ⟨⟨error, rfl, ?_⟩, quiet⟩
    exact tolerates_of_refused decoded refused.symm
  rintro args last ⟨asked, rfl⟩
  refine Program.Conforms.except_bind
    (quiet_rateLimit (declares args asked.symm) args.limiter args.quantity)
    (fun error last failed => Or.inr ⟨⟨error, rfl, Or.inl failed.1⟩, failed.2⟩) ?_
  rintro answer last ⟨_, rfl⟩
  exact Program.Conforms.mono (tells_reply answer.1 answer.2) fun _ _ told => Or.inl told

end Registration

/-- The first word after the name of the command is the key that is registered, and the only one. -/
theorem throttleRegistration_keys {words : List String} {args : Arguments}
    (asks : Asks words args) :
    throttleRegistration.keys (words.map String.toByteArray) = [args.key.toByteArray] := by
  have five : throttleRegistration.places 5 = [1] := by decide
  have six : throttleRegistration.places 6 = [1] := by decide
  -- The quantity makes no difference to the place of the key.
  cases asks with
  | short own key first second third => simp [Registration.keys, five]
  | long own key first second third fourth => simp [Registration.keys, six]

/-- The command conforms to the interface as it is registered. -/
theorem harness_conforms (argv : List ByteArray) :
    (throttleRedisCommand argv).Conforms (throttleRegistration.interface argv)
      Dialogue.Concludes .silent := by
  -- Words that are no text make the harness panic.
  show (throttleCommand.harness argv).Conforms _ _ _
  rw [Command.harness]
  cases decoded : parseArgs argv with
  | error error => trivial
  | ok words =>
    -- The key that is parsed is the word that the registration points at.
    have declares : ∀ args, arguments words = .ok args →
        throttleRegistration.Declares argv args.key := by
      intro args read
      have keys := throttleRegistration_keys (asks_of_arguments read)
      rw [parseArgs_bytes decoded] at keys
      exact ⟨by rw [keys]; exact List.mem_singleton_self _, by decide⟩
    refine (Registration.run_conforms (parseArgs_bytes decoded) declares).bind
      fun outcome last ended => ?_
    rcases ended with ⟨rfl, rfl⟩ | ⟨⟨error, rfl, told⟩, rfl⟩
    · rfl
    · exact ⟨⟨error.display, rfl, told⟩, fun _ _ => rfl⟩

/-- A server that behaves as documented keeps to the interface, whatever its keys hold. -/
theorem Server.honest {σ α : Type} (server : Server σ) (registration : Registration)
    (argv : List ByteArray) (program : Program RedisOp RedisOp.Answer α) (dialogue : Dialogue)
    (state : σ) :
    (registration.interface argv).Honest dialogue (program.exchanges server.handle state) := by
  -- Nothing about the keyspace has to be kept from one answer to the next.
  refine Contract.honest_of_invariant (fun _ _ => True)
    (fun dialogue op answer before after _ answered => ⟨?_, trivial⟩) program trivial
  -- The server answers as its keyspace does.
  have shown := server.documented op before
  rw [answered] at shown
  replace shown := congrArg Prod.fst shown
  cases op with
  | openKey keyname mode =>
    cases mode with
    | read =>
      show answer = none ∨ answer = some ⟨keyname, .read⟩
      rw [show answer = (server.view before).openKey keyname .read from (Option.some.inj shown).symm,
        Keyspace.openKey]
      -- A key that is not live is a null pointer.
      cases (server.view before).live keyname with
      | none => exact Or.inl rfl
      | some entry => exact Or.inr rfl
    | readWrite => exact (Option.some.inj shown).symm
  | replicateVerbatim => exact (Option.some.inj shown).symm
  | replyWithArray len => exact (Option.some.inj shown).symm
  | replyWithLongLong ll => exact (Option.some.inj shown).symm
  | _ => trivial

end RedisCell
