import RedisCell.Cell.StoreContract
import RedisCell.Cell.Linearizable
import RedisCell.Interaction.Protocol

/-! Calls that race on keys with exact deadlines: whether a key outlives the time it stores. -/

namespace RedisCell

open Interaction RateLimiter

/-- A value together with the instant its key expires at. -/
structure DatedEntry where
  value : UInt64
  deadline : OffsetDateTime
  deriving DecidableEq

/-- A store that gives its keys deadlines, to the nanosecond. -/
structure DatedStore where
  entries : String → Option DatedEntry

namespace DatedStore

/-- A store without keys. -/
def empty : DatedStore := ⟨fun _ => none⟩

/-- What a key holds before its deadline. -/
def live (store : DatedStore) (now : OffsetDateTime) (key : String) : Option DatedEntry :=
  (store.entries key).filter fun entry => decide (now < entry.deadline)

/-- Give a key an entry. -/
def put (store : DatedStore) (key : String) (entry : DatedEntry) : DatedStore :=
  ⟨Function.update store.entries key (some entry)⟩

/-- Answer one operation when the clock shows `now`. -/
def handle (now : OffsetDateTime) : Handler StoreOp StoreOp.Answer DatedStore
  | .getWithTime key, store => (some (.ok ((store.live now key).map DatedEntry.value, now)), store)
  | .compareAndSwapWithTtl key old new ttl, store =>
    if (store.live now key).map DatedEntry.value = some old then
      (some (.ok true), store.put key ⟨new, now + ttl⟩)
    else (some (.ok false), store)
  | .setIfNotExistsWithTtl key value ttl, store =>
    match store.live now key with
    | none => (some (.ok true), store.put key ⟨value, now + ttl⟩)
    -- A key that is there keeps its value and is given a new TTL nevertheless.
    | some entry => (some (.ok false), store.put key { entry with deadline := now + ttl })

/-- The values of the keys, whether or not they have expired. -/
def contents (store : DatedStore) : MemoryStore :=
  ⟨fun key => (store.entries key).map DatedEntry.value⟩

/-- No key expires before the time that it stores. -/
def Covers (store : DatedStore) : Prop :=
  ∀ key entry, store.entries key = some entry →
    (entry.value.toNat : Int) ≤ entry.deadline.nanos

/-- An insert does not cut a live key off before the time that it stores. -/
def Spares (store : DatedStore) (now : OffsetDateTime) : StoreOp → Prop
  | .setIfNotExistsWithTtl key _ ttl => ∀ entry, store.live now key = some entry →
    (entry.value.toNat : Int) ≤ (now + ttl).nanos
  | _ => True

variable {store : DatedStore} {now : OffsetDateTime} {key : String} {entry : DatedEntry}

/-- A dated entry is found where it is put. -/
@[simp] theorem put_entries_self (store : DatedStore) (key : String) (entry : DatedEntry) :
    (store.put key entry).entries key = some entry := by
  simp [put]

/-- The entries of other keys stay as they are. -/
@[simp] theorem put_entries_of_ne (store : DatedStore) {key other : String} (entry : DatedEntry)
    (different : other ≠ key) : (store.put key entry).entries other = store.entries other := by
  simp [put, different]

/-- An entry that is put under a key holds its value there. -/
theorem put_contents (store : DatedStore) (key : String) (entry : DatedEntry) :
    (store.put key entry).contents = store.contents.insert key entry.value := by
  -- Only the key that is put holds another value.
  apply congrArg MemoryStore.mk
  funext other
  by_cases same : other = key
  · simp [same]
  · simp [contents, same]

/-- A new deadline keeps the values. -/
theorem put_deadline (found : store.entries key = some entry) (deadline : OffsetDateTime) :
    (store.put key { entry with deadline }).contents = store.contents := by
  -- The key that is put holds the value it had.
  apply congrArg MemoryStore.mk
  funext other
  by_cases same : other = key
  · simp [same, found]
  · simp [same]

/-- As long as nothing has expired, the values are kept as in a strict store. -/
theorem handle_contents (lasting : ∀ key, store.live now key = store.entries key) (op : StoreOp) :
    MemoryStore.handleStrict now op store.contents =
      ((handle now op store).1, (handle now op store).2.contents) := by
  -- Without an expired key the live entries are all of them.
  cases op with
  | getWithTime key =>
    simp only [handle, lasting]
    rfl
  | compareAndSwapWithTtl key old new ttl =>
    by_cases same : (store.entries key).map DatedEntry.value = some old
    · have held : store.contents.map key = some old := same
      simp only [handle, MemoryStore.handleStrict, lasting, if_pos same, if_pos held,
        put_contents]
    · have gone : store.contents.map key ≠ some old := same
      simp only [handle, MemoryStore.handleStrict, lasting, if_neg same, if_neg gone]
  | setIfNotExistsWithTtl key value ttl =>
    simp only [handle, MemoryStore.handleStrict, MemoryStore.handle, lasting]
    cases found : store.entries key with
    | none =>
      have absent : store.contents.map key = none := by simp [contents, found]
      simp only [MemoryStore.setIfNotExists_absent absent, put_contents]
    | some entry =>
      have present : store.contents.map key = some entry.value := by simp [contents, found]
      simp only [MemoryStore.setIfNotExistsWithTtl, present, put_deadline found]

/-- A new entry that reaches the time it stores leaves every key covered. -/
theorem Covers.put (covers : store.Covers) (key : String)
    (reaches : (entry.value.toNat : Int) ≤ entry.deadline.nanos) :
    (store.put key entry).Covers := by
  -- The new entry reaches its own time, and every other one is as it was.
  intro other written found
  by_cases same : other = key
  · rw [same, put_entries_self, Option.some.injEq] at found
    rwa [← found]
  · rw [put_entries_of_ne store entry same] at found
    exact covers other written found

/-- A charge made at a read reaches the time it stores, unless the clock was before the epoch. -/
def Charges (made : OffsetDateTime) (value : UInt64) (ttl : Duration) : Prop :=
  0 ≤ made.nanos → (value.toNat : Int) ≤ (made + ttl).nanos

/-- Every update charges a time counted from the last read. -/
def timely : Protocol StoreOp StoreOp.Answer (Option OffsetDateTime) where
  Permits
    | _, .getWithTime _ => True
    | read, .compareAndSwapWithTtl _ _ new ttl => ∃ made, read = some made ∧ Charges made new ttl
    | read, .setIfNotExistsWithTtl _ value ttl => ∃ made, read = some made ∧ Charges made value ttl
  advance
    | _, .getWithTime _, .ok (_, now) => some now
    | read, _, _ => read

/-- The new time of a request that adds to its schedule is charged in full. -/
theorem charges_newTat {increment : Duration} (nonneg : 0 ≤ increment.nanos)
    (tatVal : Option UInt64) (made : OffsetDateTime) :
    Charges made (nanoseconds (newTat increment tatVal made))
      (newTat increment tatVal made - made) := by
  -- The stored value is no later than the new time, from which the TTL is counted back.
  intro afterEpoch
  have ahead := Gcra.le_due (storedTat tatVal) made.nanos
  have scheduled := newTat_nanos increment tatVal made
  rw [nanoseconds_toNat, OffsetDateTime.add_nanos, OffsetDateTime.sub_nanos]
  omega

section Obeys

variable {call : Call}

/-- A pass updates only what it has just read, whatever it retries with. -/
theorem obeys_iteration (nonneg : 0 ≤ call.increment.nanos) {retry : StoreM Settled}
    (later : ∀ read, (call.finish retry).Obeys timely read) (read : Option OffsetDateTime) :
    (call.finish (call.limiter.iteration call.key call.increment retry)).Obeys timely read := by
  -- Only a read that passes leads to an update.
  rw [Call.finish_iteration]
  refine ⟨trivial, fun answer => ?_⟩
  rcases answer with error | ⟨tatVal, made⟩
  · trivial
  by_cases blocks : call.limiter.Blocks call.increment tatVal made
  · simp only [if_pos blocks]
    trivial
  simp only [if_neg blocks]
  -- Any answer to the update ends the call or leaves it to its retry.
  have goes : ∀ answer, (call.updated tatVal made retry answer).Obeys timely (some made) := by
    intro answer
    rcases answer with error | won
    · trivial
    · cases won with
      | true => trivial
      | false => exact later (some made)
  cases tatVal with
  | none =>
    rw [Call.finish_updating_none]
    exact ⟨⟨made, rfl, charges_newTat nonneg none made⟩, goes⟩
  | some old =>
    rw [Call.finish_updating_some]
    exact ⟨⟨made, rfl, charges_newTat nonneg (some old) made⟩, goes⟩

/-- A call obeys however often it retries. -/
theorem obeys_attempts (nonneg : 0 ≤ call.increment.nanos) (left : Nat) :
    ∀ read, (call.finish (call.limiter.attempts call.key call.increment left)).Obeys timely
      read := by
  -- The last attempt can only fail, and every earlier one is retried by the rest of the loop.
  induction left with
  | zero => exact obeys_iteration nonneg fun _ => trivial
  | succ left ih => exact obeys_iteration nonneg ih

/-- A whole call obeys. -/
theorem obeys_program (nonneg : 0 ≤ call.increment.nanos) (read : Option OffsetDateTime) :
    call.program.Obeys timely read := by
  -- The zero rate is refused before anything is asked.
  by_cases zero : call.limiter.emissionInterval.nanos = 0
  · rw [Call.program_zero zero]
    trivial
  · rw [Call.program_eq zero]
    exact obeys_attempts nonneg maxCasAttempts read

end Obeys

/-- A last read that was made from the epoch on, and not after the latest clock. -/
def Current (read : Option OffsetDateTime) (latest : OffsetDateTime) : Prop :=
  0 ≤ latest.nanos ∧ ∀ made, read = some made → 0 ≤ made.nanos ∧ made.nanos ≤ latest.nanos

/-- A read stays current while the clock goes on. -/
theorem Current.later {read : Option OffsetDateTime} {latest : OffsetDateTime}
    (current : Current read latest) (after : latest ≤ now) : Current read now := by
  -- The latest clock only moves away from the read.
  rw [OffsetDateTime.le_iff] at after
  obtain ⟨afterEpoch, past⟩ := current
  refine ⟨afterEpoch.trans after, fun made same => ?_⟩
  obtain ⟨early, earlier⟩ := past made same
  exact ⟨early, earlier.trans after⟩

/-- The store answers a read with its clock. -/
theorem Current.answered {read : Option OffsetDateTime} {op : StoreOp} {answer : op.Answer}
    {store' : DatedStore} (current : Current read now)
    (answers : handle now op store = (some answer, store')) :
    Current (timely.advance read op answer) now := by
  -- A read is current at the clock it is answered with, and the updates read nothing.
  cases op with
  | getWithTime key =>
    cases answers
    refine ⟨current.1, fun made same => ?_⟩
    cases same
    exact ⟨current.1, le_rfl⟩
  | compareAndSwapWithTtl key old new ttl => exact current
  | setIfNotExistsWithTtl key value ttl => exact current

/-- A charge counted from a current read reaches further when it is made. -/
theorem Charges.reaches {made : OffsetDateTime} {value : UInt64} {ttl : Duration}
    (charges : Charges made value ttl) (current : Current (some made) now) :
    (value.toNat : Int) ≤ (now + ttl).nanos := by
  -- The operation is not made before the read that its TTL is counted from.
  obtain ⟨early, earlier⟩ := current.2 made rfl
  have charged := charges early
  rw [OffsetDateTime.add_nanos] at charged ⊢
  omega

/-- A permitted operation that spares the key leaves every key covered. -/
theorem Covers.handle {read : Option OffsetDateTime} {op : StoreOp} (covers : store.Covers)
    (current : Current read now) (permits : timely.Permits read op)
    (spares : store.Spares now op) : (DatedStore.handle now op store).2.Covers := by
  -- Every write gives its key a deadline, which is counted from this operation.
  cases op with
  | getWithTime key => exact covers
  | compareAndSwapWithTtl key old new ttl =>
    obtain ⟨made, rfl, charges⟩ := permits
    simp only [DatedStore.handle]
    split
    · exact covers.put key (charges.reaches current)
    · exact covers
  | setIfNotExistsWithTtl key value ttl =>
    obtain ⟨made, rfl, charges⟩ := permits
    simp only [DatedStore.handle]
    cases found : store.live now key with
    | none => exact covers.put key (charges.reaches current)
    | some entry => exact covers.put key (spares entry found)

/-- Timely calls that spare each other's keys leave every key covered. -/
def covering : Pool.Rule handle timely Spares (· ≤ ·) where
  Sound := Current
  Invariant := Covers
  later := Current.later
  answered := Current.answered
  kept := Covers.handle

/--
Racing calls keep a key for as long as its debt: when the clock never goes backwards from the epoch
on, and no insert cuts off a key that another call has set, every key outlives the time it stores.
-/
theorem racing_calls_cover {ι : Type} [DecidableEq ι] (calls : ι → Call)
    (nonneg : ∀ caller, 0 ≤ (calls caller).increment.nanos) (store : DatedStore)
    (covers : store.Covers) (schedule : List (ι × OffsetDateTime))
    (ordered : (OffsetDateTime.unixEpoch :: schedule.map Prod.snd).Pairwise (· ≤ ·))
    (spares : (Pool.start (fun caller => (calls caller).program) store).Meets handle Spares
      schedule) :
    ((Pool.start (fun caller => (calls caller).program) store).execute handle
      schedule).state.Covers := by
  -- Before any operation no call has read, and every call obeys.
  have governs : covering.Governs OffsetDateTime.unixEpoch
      (Pool.start (fun caller => (calls caller).program) store) :=
    ⟨covers, fun caller => ⟨none, ⟨le_rfl, nofun⟩, obeys_program (nonneg caller) none⟩⟩
  exact governs.execute ordered spares

/-- The second call loses its insert late enough to leave the first one's time covered. -/
theorem racing_calls_cover_readme :
    let call : Call := ⟨readmeQuota.limiter, "user123", 3⟩
    let schedule : List (Bool × OffsetDateTime) :=
      [(false, ⟨5⟩), (true, ⟨5⟩), (false, ⟨6⟩), (true, ⟨7⟩)]
    ((Pool.start (fun _ => call.program) empty).execute handle schedule).state.Covers := by
  -- The two calls read, then the first inserts and the second inserts in vain.
  intro call schedule
  let begun := ((Pool.start (fun _ : Bool => call.program) empty).step handle (false, ⟨5⟩)).step
    handle (true, ⟨5⟩)
  let charged := begun.step handle (false, ⟨6⟩)
  let set : StoreOp := .setIfNotExistsWithTtl "user123" 6000000005 (Duration.seconds 6)
  have first : begun.asks false = some set := by decide
  have second : charged.asks true = some set := by decide
  have absent : begun.state.live ⟨6⟩ "user123" = none := by decide
  have present : charged.state.live ⟨7⟩ "user123" = some ⟨6000000005, ⟨6000000006⟩⟩ := by decide
  apply racing_calls_cover (fun _ => call) (fun _ => by decide) empty nofun schedule
  · simp [schedule, OffsetDateTime.le_iff]
  -- Both calls read the absent key before the first one sets it.
  refine Pool.meets_cons rfl trivial (Pool.meets_cons rfl trivial ?_)
  show Pool.Meets handle Spares begun [(false, ⟨6⟩), (true, ⟨7⟩)]
  have sparesFirst : begun.state.Spares ⟨6⟩ set := by
    intro entry found
    exact absurd (absent.symm.trans found) nofun
  have sparesSecond : charged.state.Spares ⟨7⟩ set := by
    intro entry found
    cases present.symm.trans found
    decide
  refine Pool.meets_cons first sparesFirst ?_
  show Pool.Meets handle Spares charged [(true, ⟨7⟩)]
  exact Pool.meets_cons second sparesSecond trivial

/-- An insert that is lost to a larger one takes a second off the key, and its call is refused. -/
theorem losing_insert_expires :
    let limiter := RateLimiter.new ⟨1, Rate.perPeriod 1 (Duration.seconds 1)⟩
    let pool := (Pool.start (fun caller : Bool =>
      (Call.program ⟨limiter, "user123", if caller then 1 else 2⟩)) empty).execute handle
        [(false, ⟨0⟩), (true, ⟨0⟩), (false, ⟨0⟩), (true, ⟨0⟩), (true, ⟨0⟩)]
    (pool.returned false).map Except.isOk = some true ∧
      (pool.returned true).map Except.isOk = some true ∧
      pool.state.entries "user123" = some ⟨2000000000, ⟨1000000000⟩⟩ ∧ ¬pool.state.Covers := by
  -- The second call reads the first one's time at last, and is refused.
  intro limiter pool
  have stored : pool.state.entries "user123" = some ⟨2000000000, ⟨1000000000⟩⟩ := by decide
  refine ⟨by decide, by decide, stored, ?_⟩
  intro covers
  exact absurd (covers _ _ stored) (by decide)

end DatedStore

end RedisCell
