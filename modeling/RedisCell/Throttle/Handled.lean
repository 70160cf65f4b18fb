import RedisCell.Redis.Heap
import RedisCell.Throttle.Span

/-! The command over the pointers of the server: it gives every one of them back. -/

namespace RedisCell

open Interaction

namespace Handled

/-- `Result::unwrap`, which panics on an error. -/
def unwrap {ε α : Type} : Except ε α → RawM α
  | .ok value => pure value
  | .error _ => ExceptT.mk .abort

namespace InternalRedisStore

/-- `InternalRedisStore::compare_and_swap_with_ttl`. -/
def compareAndSwapWithTtl (key : String) (old new : UInt64) (ttl : Duration) : RawM Bool :=
  Program.inScope (RedisKeyWritable.openKeyWritable key) RedisKeyWritable.drop fun key => do
    match ← key.read with
    | some text =>
      if text == "" then return false
      match parseU64 text with
      | .error kind => throw (.parseInt kind)
      | .ok value =>
        if value == old then
          key.write (u64ToString new)
          key.setExpire ttl
          return true
        else return false
    | none => return false

/-- `InternalRedisStore::get_with_time`. -/
def getWithTime (key : String) : RawM (Option UInt64 × OffsetDateTime) :=
  Program.inScope (RedisKey.openKey key) RedisKey.drop fun key => do
    let text ← key.read
    let value ← text.mapM fun text => unwrap (parseU64 text)
    let now ← invokeRaw .nowUtc
    return (value, now)

/-- `InternalRedisStore::set_if_not_exists_with_ttl`. -/
def setIfNotExistsWithTtl (key : String) (value : UInt64) (ttl : Duration) : RawM Bool :=
  Program.inScope (RedisKeyWritable.openKeyWritable key) RedisKeyWritable.drop fun key => do
    let res ←
      if ← key.isEmpty then do
        key.write (u64ToString value)
        pure true
      else pure false
    key.setExpire ttl
    return res

/-- How the store carries out each operation of its trait. -/
def perform : (op : StoreOp) → RawProgram op.Answer
  | .getWithTime key => (getWithTime key).run
  | .compareAndSwapWithTtl key old new ttl => (compareAndSwapWithTtl key old new ttl).run
  | .setIfNotExistsWithTtl key value ttl => (setIfNotExistsWithTtl key value ttl).run

end InternalRedisStore

/-- `ThrottleCommand::run`. -/
def run (args : List String) : RawM Unit := do
  let args ← ExceptT.mk (pure (ThrottleCommand.arguments args))
  let (throttled, result) ← ExceptT.mk
    ((args.limiter.rateLimit args.key args.quantity).run.translate InternalRedisStore.perform)
  withoutPointers (ThrottleCommand.reply throttled result)

/-- Run the command on decoded arguments, and reply with its error if it has one. -/
def respond (args : List String) : RawProgram Status := do
  match ← (run args).run with
  | .ok _ => return .ok
  | .error error =>
    .ask (.replyWithError (cString ("Cell error: " ++ error.display))) fun _ => return .err

/-- `Command::harness`, whose argument strings stay the server's own. -/
def harness (argv : List (Pointer .string)) : RawProgram Status := do
  match ← (parseArgs argv).run with
  | .ok args => respond args
  | .error _ => .abort

section Neutral

variable {held left : Multiset Handle}

/-- A call that neither releases nor hands out a pointer is neutral. -/
theorem invokeRaw_neutral {op : RawOp}
    (touches : ∀ handle ∈ RawOp.ownership.touches op, handle ∈ held)
    (keeps : RawOp.ownership.releases op = [])
    (gives : ∀ answer, RawOp.ownership.acquires op answer = []) :
    (invokeRaw op).run.Neutral RawOp.ownership held := by
  -- The answer is passed on as it is.
  rw [invokeRaw, ExceptT.run_lift]
  exact (Program.Neutral.lift touches keeps gives).bind fun _ => rfl

/-- The pointer of a string. -/
def RedisString.handles (str : RedisString) : List Handle := [str.strInner.held]

/-- The pointer of a key, which may be null. -/
def RedisKey.handles (key : RedisKey) : List Handle := [⟨.key, key.keyInner⟩]

/-- The pointers of a writable key, which keeps the string that names it. -/
def RedisKeyWritable.handles (key : RedisKeyWritable) : List Handle :=
  [key.keyStr.strInner.held, ⟨.key, key.keyInner⟩]

/-- What has been added is held. -/
theorem mem_of_added {added : List Handle} {handle : Handle} (same : left = held + ↑added)
    (member : handle ∈ added) : handle ∈ left :=
  same ▸ Multiset.mem_add.mpr (Or.inr member)

/-- Creating a string adds its pointer. -/
theorem RedisString.create_owns (s : String) : (RedisString.create s).Owns RawOp.ownership
    (fun str left => left = held + ↑str.handles) held :=
  Program.Conforms.bind (Program.owns_acquire (by simp [RawOp.ownership]) rfl) fun _ _ adds => adds

/-- Dropping a string releases its pointer. -/
theorem RedisString.drop_owns {str : RedisString} (adds : left = held + ↑str.handles) :
    str.drop.Owns RawOp.ownership (fun _ last => last = held) left :=
  Program.owns_release adds (by simp [RawOp.ownership]) fun _ => rfl

/-- Opening a key for reading adds the pointer to the key alone. -/
theorem RedisKey.openKey_owns (key : String) : (RedisKey.openKey key).Owns RawOp.ownership
    (fun key left => left = held + ↑key.handles) held := by
  refine Program.Conforms.bind (RedisString.create_owns key) fun keyStr named adds => ?_
  refine Program.Conforms.bind (Program.owns_acquire ?_ rfl) fun keyInner opened more => ?_
  · -- The name is held while the key is opened.
    intro handle member
    exact mem_of_added adds member
  · -- It is released again before the key is handed out.
    have both : opened = held + ↑[(⟨.key, keyInner⟩ : Handle)] + ↑keyStr.handles := by
      rw [more, adds, Multiset.add_assoc, Multiset.add_comm (keyStr.handles : Multiset Handle),
        ← Multiset.add_assoc]
      rfl
    exact Program.Conforms.bind (RedisString.drop_owns both) fun _ _ only => only

/-- Dropping a key closes it, even a null pointer. -/
theorem RedisKey.drop_owns {key : RedisKey} (adds : left = held + ↑key.handles) :
    key.drop.Owns RawOp.ownership (fun _ last => last = held) left :=
  Program.owns_release adds (by simp [RawOp.ownership]) fun _ => rfl

/-- Opening a key for writing adds the pointers to the key and to its name. -/
theorem RedisKeyWritable.openKeyWritable_owns (key : String) :
    (RedisKeyWritable.openKeyWritable key).Owns RawOp.ownership
      (fun key left => left = held + ↑key.handles) held := by
  -- The string is acquired before the key is opened by its name.
  refine Program.Conforms.bind (RedisString.create_owns key) fun keyStr named adds => ?_
  refine Program.Conforms.bind (Program.owns_acquire ?_ rfl) fun keyInner opened more => ?_
  · intro handle member
    exact mem_of_added adds member
  · show opened = _
    rw [more, adds, Multiset.add_assoc, Multiset.coe_add]
    rfl

/-- Dropping a writable key closes it, and then drops the string that names it. -/
theorem RedisKeyWritable.drop_owns {key : RedisKeyWritable} (adds : left = held + ↑key.handles) :
    key.drop.Owns RawOp.ownership (fun _ last => last = held) left := by
  -- The key holds two handles, one of them in its string.
  have both : left = held + ↑key.keyStr.handles + ↑[(⟨.key, key.keyInner⟩ : Handle)] := by
    rw [adds, Multiset.add_assoc, Multiset.coe_add]
    rfl
  -- The key is closed before its string is freed.
  exact Program.Conforms.bind (Program.owns_release both (by simp [RawOp.ownership]) fun _ => rfl)
    fun _ _ named => RedisString.drop_owns named

/-- Decoding bytes asks nothing of the server. -/
theorem fromByteString_neutral (bytes : ByteArray) :
    (fromByteString bytes).run.Neutral RawOp.ownership held := rfl

/-- Reading a key touches its pointer only. -/
theorem readKey_neutral {key : Option (Pointer .key)} (inside : (⟨.key, key⟩ : Handle) ∈ held) :
    (readKey key).run.Neutral RawOp.ownership held := by
  -- The bytes are copied, so nothing is owned after it.
  refine Program.Neutral.except_bind (invokeRaw_neutral ?_ rfl fun _ => rfl) fun bytes =>
    fromByteString_neutral bytes
  simpa [RawOp.ownership] using inside

/-- Reading a key that is opened for it touches its pointer at most. -/
theorem RedisKey.read_neutral {key : RedisKey} (inside : (⟨.key, key.keyInner⟩ : Handle) ∈ held) :
    key.read.run.Neutral RawOp.ownership held := by
  -- A null pointer is not read.
  unfold RedisKey.read
  split
  · rfl
  · exact Program.Neutral.except_bind (readKey_neutral inside) fun _ => rfl

section Writable

variable {key : RedisKeyWritable} (inside : (⟨.key, key.keyInner⟩ : Handle) ∈ held)

include inside

/-- Reading a writable key touches its pointer, even a null one. -/
theorem RedisKeyWritable.read_neutral : key.read.run.Neutral RawOp.ownership held :=
  Program.Neutral.except_bind (readKey_neutral inside) fun _ => rfl

/-- A writable key is read to see whether it is empty. -/
theorem RedisKeyWritable.isEmpty_neutral : key.isEmpty.run.Neutral RawOp.ownership held := by
  -- The text is compared in memory.
  refine Program.Neutral.except_bind (read_neutral inside) fun text => ?_
  cases text <;> rfl

/-- Setting an expiry touches the pointer to the key only. -/
theorem RedisKeyWritable.setExpire_neutral (expire : Duration) :
    (key.setExpire expire).run.Neutral RawOp.ownership held := by
  -- Either status leaves what was held.
  refine Program.Neutral.except_bind (invokeRaw_neutral ?_ rfl fun _ => rfl) fun status => ?_
  · simpa [RawOp.ownership] using inside
  · cases status <;> rfl

/-- A write frees the string of its value, whether or not the value could be set. -/
theorem RedisKeyWritable.write_neutral (val : String) :
    (key.write val).run.Neutral RawOp.ownership held := by
  -- The string of the value lives as long as the write.
  refine Program.Neutral.inScope (RedisString.create_owns val) ?_ fun _ _ => RedisString.drop_owns
  intro valStr left adds
  refine Program.Neutral.except_bind (invokeRaw_neutral ?_ rfl fun _ => rfl) fun status => ?_
  · -- Both the key and the string of the value are held.
    have onValue : valStr.strInner.held ∈ left := mem_of_added adds (List.mem_singleton.mpr rfl)
    have onKey : (⟨.key, key.keyInner⟩ : Handle) ∈ left :=
      adds ▸ Multiset.mem_add.mpr (Or.inl inside)
    simpa [RawOp.ownership] using ⟨onKey, onValue⟩
  · cases status <;> rfl

end Writable

namespace InternalRedisStore

/-- A swap gives back its key and every string it has created, wherever it ends. -/
theorem compareAndSwapWithTtl_neutral (key : String) (old new : UInt64) (ttl : Duration) :
    (compareAndSwapWithTtl key old new ttl).run.Neutral RawOp.ownership held := by
  -- The key is open for the whole body, and dropped after it.
  refine Program.Neutral.inScope (RedisKeyWritable.openKeyWritable_owns key) ?_
    fun _ _ => RedisKeyWritable.drop_owns
  intro key left adds
  -- The key stays open for as long as it is used.
  have inside : (⟨.key, key.keyInner⟩ : Handle) ∈ left := mem_of_added adds (by
    simp [RedisKeyWritable.handles])
  refine Program.Neutral.except_bind (RedisKeyWritable.read_neutral inside) fun text => ?_
  -- Every way out of the body leaves what it was given.
  cases text with
  | none => rfl
  | some text =>
    simp only
    split
    · rfl
    · cases parseU64 text with
      | error kind => rfl
      | ok value =>
        simp only
        split
        · refine Program.Neutral.except_bind (RedisKeyWritable.write_neutral inside _) fun _ => ?_
          exact Program.Neutral.except_bind (RedisKeyWritable.setExpire_neutral inside ttl)
            fun _ => rfl
        · rfl

/-- A read gives back its key and the string that names it. -/
theorem getWithTime_neutral (key : String) :
    (getWithTime key).run.Neutral RawOp.ownership held := by
  -- The key is open for the whole body, and dropped after it.
  refine Program.Neutral.inScope (RedisKey.openKey_owns key) ?_ fun _ _ => RedisKey.drop_owns
  intro key left adds
  have inside := mem_of_added adds (List.mem_singleton.mpr rfl)
  refine Program.Neutral.except_bind (RedisKey.read_neutral inside) fun text => ?_
  refine Program.Neutral.except_bind ?_ fun value => ?_
  · -- Unwrapping a text returns or panics, and asks nothing.
    cases text with
    | none => rfl
    | some text =>
      rw [Option.mapM_some]
      refine Program.Neutral.except_bind ?_ fun _ => rfl
      cases parseU64 text with
      | error kind => trivial
      | ok value => rfl
  · exact Program.Neutral.except_bind (invokeRaw_neutral (by simp [RawOp.ownership]) rfl fun _ => rfl)
      fun _ => rfl

/-- A set gives back its key and every string it has created, wherever it ends. -/
theorem setIfNotExistsWithTtl_neutral (key : String) (value : UInt64) (ttl : Duration) :
    (setIfNotExistsWithTtl key value ttl).run.Neutral RawOp.ownership held := by
  -- The key is open for the whole body, and dropped after it.
  refine Program.Neutral.inScope (RedisKeyWritable.openKeyWritable_owns key) ?_
    fun _ _ => RedisKeyWritable.drop_owns
  intro key left adds
  -- The key stays open for as long as it is used.
  have inside : (⟨.key, key.keyInner⟩ : Handle) ∈ left := mem_of_added adds (by
    simp [RedisKeyWritable.handles])
  refine Program.Neutral.except_bind (RedisKeyWritable.isEmpty_neutral inside) fun empty => ?_
  -- The expiry is set whether or not the key was written.
  have expires : ∀ value : Bool, ((pure value : RawM Bool) >>= fun res => do
      key.setExpire ttl
      return res).run.Neutral RawOp.ownership left := fun value => by
    refine Program.Neutral.except_bind ?_ fun res => ?_
    · rfl
    · exact Program.Neutral.except_bind (RedisKeyWritable.setExpire_neutral inside ttl) fun _ => rfl
  cases empty with
  | false => exact expires false
  | true =>
    exact Program.Neutral.except_bind (RedisKeyWritable.write_neutral inside _) fun _ => expires true

/-- Every operation of the store gives back all that it acquires. -/
theorem perform_neutral (op : StoreOp) : (perform op).Neutral RawOp.ownership held := by
  -- Each operation has its own lemma.
  cases op with
  | getWithTime key => exact getWithTime_neutral key
  | compareAndSwapWithTtl key old new ttl => exact compareAndSwapWithTtl_neutral key old new ttl
  | setIfNotExistsWithTtl key value ttl => exact setIfNotExistsWithTtl_neutral key value ttl

end InternalRedisStore

/-- A computation that takes no pointer is neutral. -/
theorem withoutPointers_neutral {α : Type} (program : RedisM α) :
    (withoutPointers program).run.Neutral RawOp.ownership held := by
  refine Program.Neutral.translate (fun op => ?_) program.run
  -- A call that takes a pointer is not made.
  cases op <;> first
    | trivial
    | exact Program.Neutral.lift (by simp [RawOp.ownership]) rfl fun _ => rfl

/-- The command gives back everything it is handed, whatever the server answers. -/
theorem run_neutral (args : List String) : (run args).run.Neutral RawOp.ownership held := by
  -- The words are in memory, the store gives back its keys, and the reply holds nothing.
  refine Program.Neutral.except_bind (show (Program.ret _ : RawProgram _).Neutral _ _ from rfl)
    fun args => ?_
  refine Program.Neutral.except_bind ?_ fun answer => withoutPointers_neutral _
  exact Program.Neutral.translate InternalRedisStore.perform_neutral _

/-- Decoding the arguments touches their strings only. -/
theorem parseArgs_neutral {argv : List (Pointer .string)}
    (inside : ∀ arg ∈ argv, arg.held ∈ held) :
    (parseArgs argv).run.Neutral RawOp.ownership held := by
  -- The induction is on the arguments.
  induction argv with
  | nil => rfl
  | cons redisStr rest ih =>
    refine Program.Neutral.except_bind ?_ fun arg => ?_
    · -- Each word is one of the strings that the server lends.
      refine Program.Neutral.except_bind (invokeRaw_neutral ?_ rfl fun _ => rfl) fun bytes =>
        fromByteString_neutral bytes
      simpa [RawOp.ownership] using inside redisStr List.mem_cons_self
    · exact Program.Neutral.except_bind
        (ih fun other member => inside other (List.mem_cons_of_mem _ member)) fun _ => rfl

/-- The harness gives back everything it is handed, and leaves the arguments to the server. -/
theorem harness_neutral {argv : List (Pointer .string)}
    (inside : ∀ arg ∈ argv, arg.held ∈ held) :
    (harness argv).Neutral RawOp.ownership held := by
  refine (parseArgs_neutral inside).bind fun parsed => ?_
  -- Words that are no text make the harness panic.
  cases parsed with
  | error error => trivial
  | ok args =>
    refine (run_neutral args).bind fun outcome => ?_
    -- A reply needs no pointer.
    cases outcome with
    | ok _ => rfl
    | error error =>
      exact (Program.Neutral.lift (by simp [RawOp.ownership]) rfl fun _ => rfl).bind fun _ => rfl

end Neutral

/--
Whatever the server answers, a command touches and releases only the pointers it holds, and once it
has returned each pointer has been released as often as it was handed out.
-/
theorem harness_gives_back {σ : Type} (handle : Handler RawOp RawOp.Answer σ) (state : σ)
    (argv : List (Pointer .string)) :
    let given : Multiset Handle := ↑(argv.map Pointer.held)
    let exchanges := (harness argv).exchanges handle state
    ∃ left, RawOp.ownership.Ledger given exchanges left ∧
      ∀ status, ((harness argv).run handle state).1 = some status → left = given ∧ ∀ pointer,
        (RawOp.ownership.released exchanges).count pointer =
          (RawOp.ownership.acquired exchanges).count pointer := by
  intro given
  -- The arguments are held from the start, and are not given back.
  have neutral : (harness argv).Neutral RawOp.ownership given :=
    harness_neutral fun arg member => Multiset.mem_coe.mpr (List.mem_map_of_mem member)
  exact neutral.gives_back handle state

end Handled

end RedisCell
