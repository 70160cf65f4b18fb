import RedisCell.Cell.RedisStore
import RedisCell.Interaction.Asked

/-! What the server's keys answer to a limiter, and what a charge leaves in them. -/

namespace RedisCell

open Interaction

namespace Keyspace

/-- An entry is found where it is put. -/
@[simp] theorem put_entries_self (keyspace : Keyspace) (name : String) (entry : Entry) :
    (keyspace.put name entry).entries name = some entry := by
  simp [put]

/-- The entry put last is the one that stays. -/
@[simp] theorem put_put (keyspace : Keyspace) (name : String) (first second : Entry) :
    (keyspace.put name first).put name second = keyspace.put name second := by
  simp [put]

/-- Writing the entry a key already has changes nothing. -/
theorem put_same {keyspace : Keyspace} {name : String} {entry : Entry}
    (stored : keyspace.entries name = some entry) : keyspace.put name entry = keyspace := by
  rw [put, ← stored, Function.update_eq_self]

/-- After waiting, the clock shows the instant waited for. -/
@[simp] theorem wait_clock (keyspace : Keyspace) (now : OffsetDateTime) :
    (keyspace.wait now).clock = now := rfl

/-- A key without an expiry is readable at any time. -/
theorem live_of_lasting {keyspace : Keyspace} {name : String} {content : Content}
    (stored : keyspace.entries name = some ⟨content, none⟩) :
    keyspace.live name = some ⟨content, none⟩ := by
  simp [live, stored]

/-- What a limiter learns from a key, where nothing stands for a panic. -/
def tatVal (keyspace : Keyspace) (name : String) : Option (Except CellError (Option UInt64)) :=
  match keyspace.live name with
  | none => some (.ok none)
  | some _ =>
    match fromUtf8 (keyspace.bytes name) with
    | .error error => some (.error error)
    | .ok text =>
      -- A text that is not a count of nanoseconds is unwrapped, and so panics.
      match parseU64 text with
      | .error _ => none
      | .ok value => some (.ok (some value))

/-- A key that holds nothing yields nothing. -/
theorem tatVal_of_absent {keyspace : Keyspace} {key : String}
    (absent : keyspace.entries key = none) : keyspace.tatVal key = some (.ok none) := by
  -- A key without an entry cannot be live.
  have unread : keyspace.live key = none := by simp [live, absent]
  simp [tatVal, unread]

/-- A readable key that holds a value's text yields the value. -/
theorem tatVal_of_live {keyspace : Keyspace} {key : String} {value : UInt64}
    {expiry : Option OffsetDateTime}
    (readable : keyspace.live key = some ⟨.text (u64ToString value).toByteArray, expiry⟩) :
    keyspace.tatVal key = some (.ok (some value)) := by
  -- The bytes are those of the value's text, which parses back.
  have stored : keyspace.bytes key = (u64ToString value).toByteArray := by
    simp [bytes, readable]
  simp [tatVal, readable, stored, parseU64_u64ToString]

/-- A key that yields no value is absent, and reads as empty. -/
theorem bytes_of_absent {keyspace : Keyspace} {name : String}
    (reads : keyspace.tatVal name = some (.ok none)) : keyspace.bytes name = ByteArray.empty := by
  -- A live key yields an error, a panic, or a value, but never nothing.
  unfold tatVal at reads
  unfold bytes
  cases found : keyspace.live name with
  | none => rfl
  | some entry =>
    rw [found] at reads
    simp only at reads
    split at reads
    · cases reads
    · split at reads <;> cases reads

/-- A key that yields a value holds a text of it. -/
theorem text_of_present {keyspace : Keyspace} {name : String} {value : UInt64}
    (reads : keyspace.tatVal name = some (.ok (some value))) :
    ∃ text, fromUtf8 (keyspace.bytes name) = .ok text ∧ parseU64 text = .ok value := by
  -- Only a key that decodes and parses yields a value.
  unfold tatVal at reads
  split at reads
  · cases reads
  · split at reads
    · cases reads
    · rename_i text decoded
      split at reads
      · cases reads
      · rename_i parsed
        cases reads
        exact ⟨text, decoded, parsed⟩

/-- The milliseconds that the crate asks the server to expire a key in. -/
def expireMillis (ttl : Duration) : Int64 := Int64.ofInt ttl.wholeMilliseconds

/-- A span of a word of nanoseconds has its whole milliseconds cast exactly. -/
theorem expireMillis_toInt {ttl : Duration} (fits : FitsI64 ttl.nanos) :
    (expireMillis ttl).toInt = ttl.nanos.tdiv 1000000 := by
  -- Dividing by a million keeps a value inside its word.
  have low := fits.1
  have high := fits.2
  apply toInt_ofInt_of_fits
  rw [Duration.wholeMilliseconds]
  rcases tdiv_cases ttl.nanos 1000000 with ⟨sign, whole⟩ | ⟨sign, whole⟩ <;> rw [whole] <;> omega

/-- The deadline a charge leaves, which a negative expiry never sets. -/
def deadline (keyspace : Keyspace) (ttl : Duration) : Option OffsetDateTime :=
  if 0 ≤ (expireMillis ttl).toInt then
    some (keyspace.clock + Duration.new 0 ((expireMillis ttl).toInt * 1000000))
  else none

/-- Values with the same text are the same. -/
theorem value_of_text {first second : UInt64}
    (same : (u64ToString first).toByteArray = (u64ToString second).toByteArray) :
    first = second := by
  -- Decoding and parsing undo both conversions.
  have decoded := congrArg fromUtf8 same
  rw [fromUtf8_toByteArray, fromUtf8_toByteArray, Except.ok.injEq] at decoded
  have parsed := congrArg parseU64 decoded
  rwa [parseU64_u64ToString, parseU64_u64ToString, Except.ok.injEq] at parsed

/-- What is written for a value that is to expire after a span. -/
def charged (keyspace : Keyspace) (value : UInt64) (ttl : Duration) : Entry :=
  ⟨.text (u64ToString value).toByteArray, keyspace.deadline ttl⟩

/-- A charge succeeds when the server accepts its expiry. -/
def chargeAnswer (ttl : Duration) : Except CellError Unit :=
  if -1 ≤ (expireMillis ttl).toInt then .ok ()
  else .error (.generic "Error while setting key expire")

end Keyspace

namespace InternalRedisStore

open Keyspace

/-- A successful read of a key's text goes on with it. -/
theorem readKey_proceeds {α : Type} {keyspace : Keyspace} {key : RedisModuleKey}
    {text : String} (decoded : fromUtf8 (keyspace.bytes key.name) = .ok text)
    (next : Option String → RedisM α) :
    Program.Proceeds Keyspace.handle
      ((do let text ← readKey (some key); return some text) >>= next).run keyspace
      (next (some text)).run keyspace := by
  -- The read is answered with the bytes, which decode.
  have read : (readKey (some key)).run.run Keyspace.handle keyspace =
      (some (.ok text), keyspace) :=
    congrArg (fun answer => (some answer, keyspace)) decoded
  have some_ : (do let text ← readKey (some key); return some text :
      RedisM (Option String)).run.run Keyspace.handle keyspace =
        (some (.ok (some text)), keyspace) := Program.run_bind_ok read
  exact Program.Proceeds.bind_ok some_

/-- A failed read of a key's text ends the operation. -/
theorem run_readKey_error {α : Type} {keyspace : Keyspace} {key : RedisModuleKey}
    {error : CellError} (undecoded : fromUtf8 (keyspace.bytes key.name) = .error error)
    (next : Option String → RedisM α) :
    ((do let text ← readKey (some key); return some text) >>= next).run.run Keyspace.handle
        keyspace = (some (.error error), keyspace) := by
  -- The error of the decoding passes through both steps of the read.
  have read : (readKey (some key)).run.run Keyspace.handle keyspace =
      (some (.error error), keyspace) :=
    congrArg (fun answer => (some answer, keyspace)) undecoded
  exact Program.run_bind_error (Program.run_bind_error read)

/-- Reading a key for a limiter changes nothing. -/
theorem run_getWithTime (keyspace : Keyspace) (key : String) :
    (perform (.getWithTime key)).run Keyspace.handle keyspace =
      ((keyspace.tatVal key).map fun answer => answer.map fun tatVal => (tatVal, keyspace.clock),
        keyspace) := by
  -- A null pointer is not read, and a text is decoded and then parsed.
  show (getWithTime key).run.run Keyspace.handle keyspace = _
  have opened : (RedisKey.openKey key).run.run Keyspace.handle keyspace =
      (some (.ok ⟨keyspace.openKey key .read⟩), keyspace) := rfl
  rw [getWithTime, Program.run_bind_ok opened]
  unfold tatVal
  cases found : keyspace.live key with
  | none =>
    simp only [Keyspace.openKey, found, Option.map_none]
    rfl
  | some entry =>
    have pointer : keyspace.openKey key .read = some ⟨key, .read⟩ := by
      simp [Keyspace.openKey, found]
    rw [pointer]
    simp only [RedisKey.read, RedisKey.isNull, Option.isNone_some, Bool.false_eq_true, if_false]
    cases decoded : fromUtf8 (keyspace.bytes key) with
    | error error =>
      exact run_readKey_error decoded _
    | ok text =>
      rw [(readKey_proceeds decoded _).run]
      cases parsed : parseU64 text with
      | error kind =>
        simp only [Option.mapM_some, parsed]
        rfl
      | ok value =>
        simp only [Option.mapM_some, parsed]
        rfl

/-- The read of a limiter is answered with what the key yields. -/
theorem answered_getWithTime {keyspace : Keyspace} {key : String}
    {answer : Option (Except CellError (Option UInt64))}
    (reads : keyspace.tatVal key = answer) :
    (perform (.getWithTime key)).run Keyspace.handle keyspace =
      (answer.map fun answer => answer.map fun tatVal => (tatVal, keyspace.clock), keyspace) :=
  reads ▸ run_getWithTime keyspace key

/-- A key that was just written takes the deadline of its charge, or keeps none. -/
theorem run_setExpire {keyspace : Keyspace} {name : String} {content : Content}
    (stored : keyspace.entries name = some ⟨content, none⟩) (ttl : Duration) :
    (RedisKeyWritable.setExpire ⟨some ⟨name, .readWrite⟩⟩ ttl).run.run Keyspace.handle keyspace =
      (some (chargeAnswer ttl), keyspace.put name ⟨content, keyspace.deadline ttl⟩) := by
  -- The key was just written, so its expiry is all that can fail.
  have readable := live_of_lasting stored
  have unchanged := put_same stored
  -- The key lasts, so the server finds it whenever it is asked.
  have asked : keyspace.setExpire (some ⟨name, .readWrite⟩) (expireMillis ttl) =
      (if -1 ≤ (expireMillis ttl).toInt then .ok else .err,
        keyspace.put name ⟨content, keyspace.deadline ttl⟩) := by
    simp only [Keyspace.setExpire, readable, deadline]
    -- The server tells a deadline, a removal, and a refusal apart.
    by_cases future : 0 ≤ (expireMillis ttl).toInt
    · rw [if_pos future, if_pos future, if_pos (by omega)]
    · rw [if_neg future, if_neg future, unchanged]
      by_cases removal : expireMillis ttl = -1
      · rw [if_pos removal, removal, if_pos (by decide)]
      · have other : (expireMillis ttl).toInt ≠ -1 := fun same =>
          removal (Int64.toInt_inj.mp same)
        rw [if_neg removal, if_neg (by omega)]
  have answered : Keyspace.handle (.setExpire (some ⟨name, .readWrite⟩) (expireMillis ttl)) keyspace =
      (some (if -1 ≤ (expireMillis ttl).toInt then Status.ok else Status.err),
        keyspace.put name ⟨content, keyspace.deadline ttl⟩) :=
    congrArg (fun answer : Status × Keyspace => (some answer.1, answer.2)) asked
  rw [RedisKeyWritable.setExpire]
  by_cases accepted : -1 ≤ (expireMillis ttl).toInt
  · rw [if_pos accepted] at answered
    rw [chargeAnswer, if_pos accepted]
    exact Program.run_bind_ok (run_invoke answered)
  · rw [if_neg accepted] at answered
    rw [chargeAnswer, if_neg accepted]
    exact Program.run_bind_ok (run_invoke answered)

/-- Writing a value leaves it without an expiry. -/
theorem run_write (keyspace : Keyspace) (name : String) (value : UInt64) :
    (RedisKeyWritable.write ⟨some ⟨name, .readWrite⟩⟩ (u64ToString value)).run.run Keyspace.handle
        keyspace =
      (some (.ok ()), keyspace.put name ⟨.text (u64ToString value).toByteArray, none⟩) := rfl

/-- The part that both updates of the store end with: a value is written, and is to expire. -/
def charge (name : String) (value : UInt64) (ttl : Duration) : RedisM Bool := do
  RedisKeyWritable.write ⟨some ⟨name, .readWrite⟩⟩ (u64ToString value)
  RedisKeyWritable.setExpire ⟨some ⟨name, .readWrite⟩⟩ ttl
  return true

/-- A charge writes its value, and then its deadline. -/
theorem run_charge (keyspace : Keyspace) (name : String) (value : UInt64) (ttl : Duration) :
    (charge name value ttl).run.run Keyspace.handle keyspace =
      (some ((chargeAnswer ttl).map fun _ => true),
        keyspace.put name (keyspace.charged value ttl)) := by
  -- The write leaves no expiry, so that the deadline is set on a key that lasts.
  have expired := run_setExpire (put_entries_self keyspace name
    ⟨.text (u64ToString value).toByteArray, none⟩) ttl
  rw [put_put] at expired
  rw [charge, Program.run_bind_ok (run_write keyspace name value)]
  cases answer : chargeAnswer ttl with
  | error error =>
    rw [answer] at expired
    exact Program.run_bind_error expired
  | ok _ =>
    rw [answer] at expired
    exact Program.run_bind_ok expired

/-- A swap from the value a key holds goes on to charge the key. -/
theorem compareAndSwap_proceeds {keyspace : Keyspace} {key : String} {old : UInt64}
    (reads : keyspace.tatVal key = some (.ok (some old))) (new : UInt64) (ttl : Duration) :
    Program.Proceeds Keyspace.handle (compareAndSwapWithTtl key old new ttl).run keyspace
      (charge key new ttl).run keyspace := by
  -- The key holds a text that parses to the old value.
  obtain ⟨text, decoded, parsed⟩ := text_of_present reads
  -- An empty text has no value, so the guard before the parse is passed.
  have nonempty : (text == "") = false := by
    rw [beq_eq_false_iff_ne]
    intro same
    subst same
    simp [parseU64] at parsed
  have opened : (RedisKeyWritable.openKeyWritable key).run.run Keyspace.handle keyspace =
      (some (.ok ⟨some ⟨key, .readWrite⟩⟩), keyspace) := rfl
  refine (Program.Proceeds.bind_ok opened).trans ?_
  refine (readKey_proceeds decoded _).trans ?_
  simp only [nonempty, parsed, Bool.false_eq_true, if_false, beq_self_eq_true, if_true]
  exact Program.Proceeds.refl _ _ _

/-- A swap from the value a key holds charges the key. -/
theorem run_compareAndSwap {keyspace : Keyspace} {key : String} {old : UInt64}
    (reads : keyspace.tatVal key = some (.ok (some old))) (new : UInt64) (ttl : Duration) :
    (perform (.compareAndSwapWithTtl key old new ttl)).run Keyspace.handle keyspace =
      (some ((chargeAnswer ttl).map fun _ => true), keyspace.put key (keyspace.charged new ttl)) :=
  (compareAndSwap_proceeds reads new ttl).run.trans (run_charge keyspace key new ttl)

/-- Setting an absent key goes on to charge the key. -/
theorem setIfNotExists_proceeds {keyspace : Keyspace} {key : String}
    (reads : keyspace.tatVal key = some (.ok none)) (value : UInt64) (ttl : Duration) :
    Program.Proceeds Keyspace.handle (setIfNotExistsWithTtl key value ttl).run keyspace
      (charge key value ttl).run keyspace := by
  -- An absent key reads as empty bytes, which are the empty text.
  have empty : fromUtf8 (keyspace.bytes key) = .ok "" := by
    rw [bytes_of_absent reads]
    rfl
  have opened : (RedisKeyWritable.openKeyWritable key).run.run Keyspace.handle keyspace =
      (some (.ok ⟨some ⟨key, .readWrite⟩⟩), keyspace) := rfl
  have isEmpty : (RedisKeyWritable.isEmpty ⟨some ⟨key, .readWrite⟩⟩).run.run Keyspace.handle
      keyspace = (some (.ok true), keyspace) := by
    rw [RedisKeyWritable.isEmpty, RedisKeyWritable.read, (readKey_proceeds empty _).run]
    rfl
  exact (Program.Proceeds.bind_ok opened).trans (Program.Proceeds.bind_ok isEmpty)

/-- Setting an absent key charges the key. -/
theorem run_setIfNotExists {keyspace : Keyspace} {key : String}
    (reads : keyspace.tatVal key = some (.ok none)) (value : UInt64) (ttl : Duration) :
    (perform (.setIfNotExistsWithTtl key value ttl)).run Keyspace.handle keyspace =
      (some ((chargeAnswer ttl).map fun _ => true),
        keyspace.put key (keyspace.charged value ttl)) :=
  (setIfNotExists_proceeds reads value ttl).run.trans (run_charge keyspace key value ttl)

/-- The store as a limiter's calls meet it in a keyspace. -/
def onKeyspace : Handler StoreOp StoreOp.Answer Keyspace := fun op keyspace =>
  (perform op).run Keyspace.handle keyspace

/-- A computation carried out in the server is run against the store in its keyspace. -/
theorem run_carryOut {α : Type} (program : StoreM α) (keyspace : Keyspace) :
    (carryOut program).run.run Keyspace.handle keyspace = program.run.run onKeyspace keyspace :=
  Program.run_translate Keyspace.handle perform program.run keyspace

/-- The update after an undisturbed read charges the key. -/
theorem run_update {keyspace : Keyspace} {key : String} {tatVal : Option UInt64}
    (reads : keyspace.tatVal key = some (.ok tatVal)) (increment : Duration)
    (now : OffsetDateTime) :
    (RateLimiter.update key increment tatVal now).run.run onKeyspace keyspace =
      (some ((chargeAnswer (RateLimiter.newTat increment tatVal now - now)).map fun _ => true),
        keyspace.put key (keyspace.charged (nanoseconds (RateLimiter.newTat increment tatVal now))
          (RateLimiter.newTat increment tatVal now - now))) := by
  -- The update that a pass asks for fits what its read has found.
  cases tatVal with
  | none =>
    have set := run_setIfNotExists reads (nanoseconds (RateLimiter.newTat increment none now))
      (RateLimiter.newTat increment none now - now)
    exact Program.run_ask onKeyspace _ set
  | some value =>
    have swapped := run_compareAndSwap reads
      (nanoseconds (RateLimiter.newTat increment (some value) now))
      (RateLimiter.newTat increment (some value) now - now)
    exact Program.run_ask onKeyspace _ swapped

end InternalRedisStore

namespace Keyspace

open InternalRedisStore

/-- One call of a limiter on a key of the server. -/
def rateLimit (keyspace : Keyspace) (limiter : RateLimiter) (key : String) (quantity : Int64) :
    MemoryStore.Outcome × Keyspace :=
  (carryOut (limiter.rateLimit key quantity)).run.run Keyspace.handle keyspace

section RateLimit

variable {limiter : RateLimiter} {key : String} {quantity : Int64} {keyspace : Keyspace}
  {tatVal : Option UInt64} {error : CellError}

/-- A limiter without an interval refuses every call before it reads the key. -/
theorem rateLimit_zero (zero : limiter.emissionInterval.nanos = 0) :
    keyspace.rateLimit limiter key quantity =
      (some (.error (.generic "Zero rates are not supported")), keyspace) := by
  -- The limiter looks at its interval first.
  rw [rateLimit, run_carryOut, RateLimiter.rateLimit_zero zero]
  rfl

/-- A call on a key that is not UTF-8 returns the error of its decoding. -/
theorem rateLimit_unread (nonzero : limiter.emissionInterval.nanos ≠ 0)
    (reads : keyspace.tatVal key = some (.error error)) :
    keyspace.rateLimit limiter key quantity = (some (.error error), keyspace) := by
  -- The read is the call's first operation.
  rw [rateLimit, run_carryOut]
  exact RateLimiter.run_rateLimit_unread nonzero (answered_getWithTime reads)

/-- A call on a key that is not a count of nanoseconds panics. -/
theorem rateLimit_abort (nonzero : limiter.emissionInterval.nanos ≠ 0)
    (reads : keyspace.tatVal key = none) :
    keyspace.rateLimit limiter key quantity = (none, keyspace) := by
  -- The read is the call's first operation.
  rw [rateLimit, run_carryOut]
  exact RateLimiter.run_rateLimit_abort nonzero (answered_getWithTime reads)

/-- A refused call reports its wait and leaves the key alone. -/
theorem rateLimit_blocked (nonzero : limiter.emissionInterval.nanos ≠ 0)
    (reads : keyspace.tatVal key = some (.ok tatVal))
    (blocks : limiter.Blocks (limiter.increment quantity) tatVal keyspace.clock) :
    keyspace.rateLimit limiter key quantity =
      (some (.ok (limiter.report
        (limiter.blocked (limiter.increment quantity) tatVal keyspace.clock))), keyspace) := by
  -- The read is the call's only operation.
  rw [rateLimit, run_carryOut]
  exact RateLimiter.run_rateLimit_blocked nonzero (answered_getWithTime reads) blocks

/-- A call that passes charges the key, and reports the grant unless the expiry is refused. -/
theorem rateLimit_passed (nonzero : limiter.emissionInterval.nanos ≠ 0)
    (reads : keyspace.tatVal key = some (.ok tatVal))
    (passes : ¬limiter.Blocks (limiter.increment quantity) tatVal keyspace.clock) :
    let new := RateLimiter.newTat (limiter.increment quantity) tatVal keyspace.clock
    keyspace.rateLimit limiter key quantity =
      (some ((chargeAnswer (new - keyspace.clock)).map fun _ => limiter.report
          (RateLimiter.granted (limiter.increment quantity) tatVal keyspace.clock)),
        keyspace.put key (keyspace.charged (nanoseconds new) (new - keyspace.clock))) := by
  -- Whether the charge succeeds is decided by its expiry.
  intro new
  have read := answered_getWithTime reads
  have updated := run_update reads (limiter.increment quantity) keyspace.clock
  rw [rateLimit, run_carryOut]
  cases answer : chargeAnswer (new - keyspace.clock) with
  | error error =>
    rw [answer] at updated
    exact RateLimiter.run_rateLimit_unwritten nonzero read passes updated
  | ok _ =>
    rw [answer] at updated
    exact RateLimiter.run_rateLimit_granted nonzero read passes updated

end RateLimit

end Keyspace

end RedisCell
