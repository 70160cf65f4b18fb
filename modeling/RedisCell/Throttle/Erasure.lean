import RedisCell.Interaction.Erasure
import RedisCell.Throttle.Handled
import RedisCell.Cell.RedisWrites

/-! Giving pointers back changes nothing else: the command does what it does without any pointer. -/

namespace RedisCell

open Interaction

variable {σ α β : Type} {server : Handler RedisOp RedisOp.Answer σ} {heap : Heap}

/-- A program over pointers does what a program without them does, and restores its heap. -/
abbrev Erased (server : Handler RedisOp RedisOp.Answer σ) (heap : Heap) (program : RawProgram α)
    (erased : Program RedisOp RedisOp.Answer α) : Prop :=
  Program.Erases (Heap.handle server) server Heap.Same heap program erased

namespace Heap

/-- The heap after a key has been closed. -/
def close (heap : Heap) : Option (Pointer .key) → Heap
  | none => heap
  | some kp => heap.freeKey kp.address

/-- A heap that gains a string and loses it again is the same. -/
theorem allocString_freeString (heap : Heap) (bytes : ByteArray) :
    ((heap.allocString bytes).freeString heap.next).Same heap := by
  -- Nothing was stored at the next address.
  refine ⟨?_, rfl⟩
  show Function.update (Function.update heap.strings heap.next (some bytes)) heap.next none = _
  rw [Function.update_idem, ← (heap.unused heap.next le_rfl).1, Function.update_eq_self]

/-- A heap that gains a key and loses it again is the same. -/
theorem allocKey_close (heap : Heap) (key : RedisModuleKey) :
    ((heap.allocKey key).close (some ⟨heap.next⟩)).Same heap := by
  -- Nothing was stored at the next address.
  refine ⟨rfl, ?_⟩
  show Function.update (Function.update heap.keys heap.next (some key)) heap.next none = _
  rw [Function.update_idem, ← (heap.unused heap.next le_rfl).2, Function.update_eq_self]

/-- What opening a key by its name adds to a heap: the pointer and the key it leads to, unless the
server has found none. -/
theorem run_openKey {keyname : Pointer .string} {name : String} {mode : KeyMode} {state state' : σ}
    {opened : Option RedisModuleKey} (holds : heap.text keyname = some name)
    (answered : server (.openKey name mode) state = (some opened, state')) :
    ∃ key inside, handle server (.openKey keyname mode) (state, heap) =
        (some key, state', inside) ∧
      inside.key key = some opened ∧ inside.strings = heap.strings ∧
      (inside.close key).Same heap := by
  -- A null answer is a null pointer, and any other one is stored under the next address.
  cases opened with
  | none => exact ⟨none, heap, by simp only [handle, holds, answered], rfl, rfl, rfl, rfl⟩
  | some opened =>
    refine ⟨some ⟨heap.next⟩, heap.allocKey opened, by simp only [handle, holds, answered], ?_, rfl,
      heap.allocKey_close opened⟩
    simp [Heap.key, allocKey]

/-- A string that names no key is not opened, and takes the server down where that does. -/
theorem run_openKey_none {keyname : Pointer .string} {name : String} {mode : KeyMode}
    {state state' : σ} (holds : heap.text keyname = some name)
    (unanswered : server (.openKey name mode) state = (none, state')) :
    handle server (.openKey keyname mode) (state, heap) = (none, state', heap) := by
  simp only [handle, holds, unanswered]

/-- Strings and keys are freed apart from each other. -/
theorem freeString_key (heap : Heap) (address : Nat) (key : Option (Pointer .key)) :
    (heap.freeString address).key key = heap.key key := by
  cases key <;> rfl

/-- Freeing a string and closing a key go in either order. -/
theorem freeString_close (heap : Heap) (address : Nat) (key : Option (Pointer .key)) :
    (heap.freeString address).close key = (heap.close key).freeString address := by
  cases key <;> rfl

/-- Closing a key leaves the text of every string. -/
theorem close_text (heap : Heap) (key : Option (Pointer .key)) (str : Pointer .string) :
    (heap.close key).text str = heap.text str := by
  cases key <;> rfl

/-- Closing a key in the same heap leaves the same. -/
theorem Same.close {after inside : Heap} (same : after.Same inside) (key : Option (Pointer .key)) :
    (after.close key).Same (inside.close key) := by
  -- Closing the same key takes the same entry from both.
  cases key with
  | none => exact same
  | some kp =>
    refine ⟨same.strings, ?_⟩
    show Function.update after.keys _ _ = Function.update inside.keys _ _
    rw [same.keys]

/-- Freeing a string in the same heap leaves the same. -/
theorem Same.freeString {after inside : Heap} (same : after.Same inside) (address : Nat) :
    (after.freeString address).Same (inside.freeString address) := by
  -- The same address is cleared in both.
  refine ⟨?_, same.keys⟩
  show Function.update after.strings _ _ = Function.update inside.strings _ _
  rw [same.strings]

/-- A key that was opened is closed without complaint. -/
theorem run_closeKey {key : Option (Pointer .key)} {opened : Option RedisModuleKey} (state : σ)
    (resolves : heap.key key = some opened) :
    handle server (.closeKey key) (state, heap) = (some (), state, heap.close key) := by
  -- A null key has nothing to close.
  cases key with
  | none => rfl
  | some kp =>
    cases stored : heap.keys kp.address with
    | none => simp [Heap.key, stored] at resolves
    | some _ =>
      simp only [handle, stored]
      rfl

/-- A string that is there is freed without complaint. -/
theorem run_freeString {str : Pointer .string} {text : String} (state : σ)
    (holds : heap.text str = some text) :
    handle server (.freeString str) (state, heap) =
      (some (), state, heap.freeString str.address) := by
  -- The string is there, so it can be freed.
  cases stored : heap.strings str.address with
  | none => simp [Heap.text, stored] at holds
  | some _ =>
    simp only [handle, stored]
    rfl

end Heap

/-- A call that the heap passes to the server goes on with the server's answer. -/
theorem erased_ask {raw : RawOp} {op : RedisOp} {next : raw.Answer → RawProgram α}
    {next' : op.Answer → Program RedisOp RedisOp.Answer α} (convert : op.Answer → raw.Answer)
    (answered : ∀ state, Heap.handle server raw (state, heap) =
      heap.answer convert (server op state))
    (rest : ∀ answer, Erased server heap (next (convert answer)) (next' answer)) :
    Erased server heap (.ask raw next) (.ask op next') := by
  intro state
  simp only [Program.run, answered state, Heap.answer]
  -- The server is asked the same thing, and both sides go on with what it answers.
  cases server op state with
  | mk answer state' =>
    cases answer with
    | none => exact ⟨heap, rfl, fun impossible => absurd rfl impossible⟩
    | some answer => exact rest answer state'

/-- The same for a call in a fallible sequence. -/
theorem erased_call {raw : RawOp} {op : RedisOp} {next : raw.Answer → RawM α}
    {next' : op.Answer → RedisM α} (convert : op.Answer → raw.Answer)
    (answered : ∀ state, Heap.handle server raw (state, heap) =
      heap.answer convert (server op state))
    (rest : ∀ answer, Erased server heap (next (convert answer)).run (next' answer).run) :
    Erased server heap (invokeRaw raw >>= next).run (invoke op >>= next').run :=
  erased_ask convert answered rest

namespace Handled

variable {key : Option (Pointer .key)} {opened : Option RedisModuleKey}

/-- Reading a key through its pointer reads the key. -/
theorem readKey_erased (resolves : heap.key key = some opened) :
    Erased server heap (readKey key).run (RedisCell.readKey opened).run := by
  -- The pointer stands for the key, so the server is asked about that.
  refine erased_call id (fun state => ?_) fun _ => Program.erases_ret _
  simp only [Heap.handle, resolves]
  rfl

/-- Reading through a pointer reads the key that it stands for. -/
theorem RedisKey.read_erased {key : RedisKey} {key' : RedisCell.RedisKey}
    (resolves : heap.key key.keyInner = some key'.keyInner) :
    Erased server heap key.read.run key'.read.run := by
  -- The pointer is null exactly when there is no key.
  have null : key.isNull = key'.isNull := by
    obtain ⟨keyInner⟩ := key
    obtain ⟨keyInner'⟩ := key'
    cases keyInner with
    | none =>
      cases resolves
      rfl
    | some pointer =>
      obtain ⟨_, _, rfl⟩ := Option.map_eq_some_iff.mp resolves
      rfl
  unfold RedisKey.read RedisCell.RedisKey.read
  rw [null]
  split
  · exact Program.erases_ret _
  · exact (readKey_erased resolves).except_bind fun _ _ _ => Program.erases_ret _

section Writable

variable {key : RedisKeyWritable} {key' : RedisCell.RedisKeyWritable}
  (resolves : heap.key key.keyInner = some key'.keyInner)

include resolves

/-- Reading through a writable pointer reads the key that it stands for. -/
theorem RedisKeyWritable.read_erased : Erased server heap key.read.run key'.read.run :=
  (readKey_erased resolves).except_bind fun _ _ _ => Program.erases_ret _

/-- A pointer is asked whether its key is empty. -/
theorem RedisKeyWritable.isEmpty_erased : Erased server heap key.isEmpty.run key'.isEmpty.run := by
  -- Both sides compare the same text.
  refine (read_erased resolves).except_bind fun text _ _ => ?_
  cases text <;> exact Program.erases_ret _

/-- An expiry set through a pointer is set on its key. -/
theorem RedisKeyWritable.setExpire_erased (expire : Duration) :
    Erased server heap (key.setExpire expire).run (key'.setExpire expire).run := by
  -- The pointer stands for its key while the expiry is set.
  refine erased_call id (fun state => ?_) fun status => ?_
  · simp only [Heap.handle, resolves]
    rfl
  · cases status <;> exact Program.erases_ret _

/-- Creating and freeing the string of a value leaves no trace of it. -/
theorem RedisKeyWritable.write_erased (val : String) :
    Erased server heap (key.write val).run (key'.write val).run := by
  -- The string is there, the key is still open, and freeing the string leaves what was before.
  let stands : RedisString → Unit → Heap → Prop := fun valStr _ inside =>
    inside.text valStr.strInner = some val ∧ inside.key key.keyInner = some key'.keyInner ∧
      (inside.freeString valStr.strInner.address).Same heap
  show Erased server heap (key.write val).run
    ((pure () : RedisM Unit) >>= fun _ => key'.write val).run
  refine Program.Erases.inScope (show Program.Acquires _ _ stands heap (RedisString.create val)
    (pure () : RedisM Unit) from ?_) ?_ ?_
  · intro state
    refine Or.inl ⟨⟨⟨heap.next⟩⟩, (), state, heap.allocString val.toByteArray, rfl, rfl, ?_, ?_, ?_⟩
    · exact heap.allocString_text val
    · cases keyInner : key.keyInner <;> rw [keyInner] at resolves <;> exact resolves
    · exact heap.allocString_freeString _
  · rintro valStr ⟨⟩ inside ⟨holds, still, _⟩
    refine erased_call id (fun state => ?_) fun status => ?_
    · simp only [Heap.handle, holds, still]
      rfl
    · cases status <;> exact Program.erases_ret _
  · rintro valStr ⟨⟩ inside after ⟨holds, _, back⟩ same state
    have there : after.text valStr.strInner = some val := by
      rw [Heap.text, same.strings]
      exact holds
    refine ⟨after.freeString valStr.strInner.address, ?_,
      IsTrans.trans _ _ _ (same.freeString _) back⟩
    exact Program.run_ask _ _ (Heap.run_freeString state there)

end Writable

/-- A key that is open for reading, and whose closing restores a heap. -/
def RedisKey.Stands (heap : Heap) (key : RedisKey) (key' : RedisCell.RedisKey)
    (inside : Heap) : Prop :=
  inside.key key.keyInner = some key'.keyInner ∧ (inside.close key.keyInner).Same heap

/-- The name of a key that is opened for reading is gone when the key is there. -/
theorem RedisKey.openKey_acquires (heap : Heap) (name : String) :
    Program.Acquires (Heap.handle server) server (RedisKey.Stands heap) heap
      (RedisKey.openKey name) (RedisCell.RedisKey.openKey name) := by
  -- The name is made a string of the server, which is freed once the key is open.
  intro state
  let named := heap.allocString name.toByteArray
  have created : Heap.handle server (.createString name) (state, heap) =
      (some ⟨heap.next⟩, state, named) := rfl
  have holds : named.text ⟨heap.next⟩ = some name := heap.allocString_text name
  cases answered : server (.openKey name .read) state with
  | mk opened state' =>
    cases opened with
    | none =>
      refine Or.inr ⟨state', named, ?_, ?_⟩
      · refine (Program.run_ask _ _ created).trans ?_
        exact Program.run_ask_none _ (Heap.run_openKey_none holds answered)
      · exact Program.run_ask_none _ answered
    | some opened =>
      -- The name is still there when it is freed, after the key has been opened.
      obtain ⟨key, inside, opens, resolves, strings, back⟩ := Heap.run_openKey holds answered
      have still : inside.text ⟨heap.next⟩ = some name := by
        rw [Heap.text, strings]
        exact holds
      refine Or.inl ⟨⟨key⟩, ⟨opened⟩, state', inside.freeString heap.next, ?_, ?_, ?_, ?_⟩
      · refine (Program.run_ask _ _ created).trans ?_
        refine (Program.run_ask _ _ opens).trans ?_
        exact Program.run_ask _ _ (Heap.run_freeString state' still)
      · exact Program.run_ask _ _ answered
      · exact (inside.freeString_key _ _).trans resolves
      · rw [Heap.freeString_close]
        exact IsTrans.trans _ _ _ (back.freeString _) (heap.allocString_freeString _)

/-- A key that was open for reading is closed in any heap that is the same. -/
theorem RedisKey.drop_restores {key : RedisKey} {key' : RedisCell.RedisKey} {inside after : Heap}
    (stands : RedisKey.Stands heap key key' inside) (same : after.Same inside) (state : σ) :
    ∃ last, key.drop.run (Heap.handle server) (state, after) = (some (), state, last) ∧
      last.Same heap :=
  -- Only the pointer is left to close.
  ⟨after.close key.keyInner,
    Program.run_ask _ _ (Heap.run_closeKey state ((same.key _).trans stands.1)),
    IsTrans.trans _ _ _ (same.close _) stands.2⟩

/-- A key that is open for writing, and whose closing restores a heap together with its name. -/
structure RedisKeyWritable.Stands (heap : Heap) (key : RedisKeyWritable)
    (key' : RedisCell.RedisKeyWritable) (inside : Heap) : Prop where
  resolves : inside.key key.keyInner = some key'.keyInner
  named : ∃ name, inside.text key.keyStr.strInner = some name
  restores : ((inside.close key.keyInner).freeString key.keyStr.strInner.address).Same heap

/-- A key that is opened for writing keeps its name. -/
theorem RedisKeyWritable.openKeyWritable_acquires (heap : Heap) (name : String) :
    Program.Acquires (Heap.handle server) server (RedisKeyWritable.Stands heap) heap
      (RedisKeyWritable.openKeyWritable name)
      (RedisCell.RedisKeyWritable.openKeyWritable name) := by
  intro state
  -- The name is first made a string of the server.
  let named := heap.allocString name.toByteArray
  have created : Heap.handle server (.createString name) (state, heap) =
      (some ⟨heap.next⟩, state, named) := rfl
  have holds : named.text ⟨heap.next⟩ = some name := heap.allocString_text name
  cases answered : server (.openKey name .readWrite) state with
  | mk opened state' =>
    cases opened with
    -- A server that stops while it opens stops both.
    | none =>
      refine Or.inr ⟨state', named, ?_, ?_⟩
      · refine (Program.run_ask _ _ created).trans ?_
        exact Program.run_ask_none _ (Heap.run_openKey_none holds answered)
      · exact Program.run_ask_none _ answered
    | some opened =>
      obtain ⟨key, inside, opens, resolves, strings, back⟩ := Heap.run_openKey holds answered
      -- The new key leaves the string in its place.
      have still : inside.text ⟨heap.next⟩ = some name := by
        rw [Heap.text, strings]
        exact holds
      refine Or.inl ⟨⟨key, ⟨⟨heap.next⟩⟩⟩, ⟨opened⟩, state', inside, ?_, ?_, resolves,
        ⟨name, still⟩, ?_⟩
      · refine (Program.run_ask _ _ created).trans ?_
        exact Program.run_ask _ _ opens
      · exact Program.run_ask _ _ answered
      · exact IsTrans.trans _ _ _ (back.freeString _) (heap.allocString_freeString _)

/-- A key that was open for writing is closed and its name freed in any heap that is the same. -/
theorem RedisKeyWritable.drop_restores {key : RedisKeyWritable} {key' : RedisCell.RedisKeyWritable}
    {inside after : Heap} (stands : RedisKeyWritable.Stands heap key key' inside)
    (same : after.Same inside) (state : σ) :
    ∃ last, key.drop.run (Heap.handle server) (state, after) = (some (), state, last) ∧
      last.Same heap := by
  obtain ⟨name, named⟩ := stands.named
  -- The string outlives the key, which is closed first.
  have there : (after.close key.keyInner).text key.keyStr.strInner = some name := by
    rw [Heap.close_text, Heap.text, same.strings]
    exact named
  have closed : Heap.handle server (.closeKey key.keyInner) (state, after) =
      (some (), state, after.close key.keyInner) :=
    Heap.run_closeKey state ((same.key _).trans stands.resolves)
  refine ⟨(after.close key.keyInner).freeString key.keyStr.strInner.address, ?_,
    IsTrans.trans _ _ _ ((same.close _).freeString _) stands.restores⟩
  exact (Program.run_ask _ _ closed).trans
    (Program.run_ask _ _ (Heap.run_freeString state there))

namespace InternalRedisStore

/-- Fetching a value does the same with the handles erased, and gives all of them back. -/
theorem getWithTime_erased (heap : Heap) (key : String) :
    Erased server heap (getWithTime key).run (RedisCell.InternalRedisStore.getWithTime key).run := by
  -- The key is opened, read and closed on both sides.
  refine Program.Erases.inScope (RedisKey.openKey_acquires heap key) (fun stands => ?_)
    RedisKey.drop_restores
  refine (RedisKey.read_erased stands.1).except_bind fun text _ _ => ?_
  refine Program.Erases.except_bind ?_ fun value _ _ => ?_
  · -- Unwrapping a text returns or panics alike.
    cases text with
    | none => exact Program.erases_ret _
    | some text =>
      rw [Option.mapM_some, Option.mapM_some]
      refine Program.Erases.except_bind ?_ fun _ _ _ => Program.erases_ret _
      cases parseU64 text with
      | error kind => exact Program.erases_abort
      | ok value => exact Program.erases_ret _
  · exact erased_call id (fun _ => rfl) fun _ => Program.erases_ret _

/-- Swapping a value does the same with the handles erased. -/
theorem compareAndSwapWithTtl_erased (heap : Heap) (key : String) (old new : UInt64)
    (ttl : Duration) : Erased server heap (compareAndSwapWithTtl key old new ttl).run
      (RedisCell.InternalRedisStore.compareAndSwapWithTtl key old new ttl).run := by
  -- The key is opened and read on both sides.
  refine Program.Erases.inScope (RedisKeyWritable.openKeyWritable_acquires heap key)
    (fun stands => ?_) RedisKeyWritable.drop_restores
  refine (RedisKeyWritable.read_erased stands.resolves).except_bind fun text inside same => ?_
  -- Reading has left the key where it was.
  have resolves := (same.key _).trans stands.resolves
  -- Both sides decide by the same text.
  cases text with
  | none => exact Program.erases_ret _
  | some text =>
    simp only
    split
    · exact Program.erases_ret _
    · cases parseU64 text with
      | error kind => exact Program.erases_ret _
      | ok value =>
        simp only
        split
        · refine (RedisKeyWritable.write_erased resolves _).except_bind fun _ inside' same' => ?_
          exact (RedisKeyWritable.setExpire_erased ((same'.key _).trans resolves) ttl).except_bind
            fun _ _ _ => Program.erases_ret _
        · exact Program.erases_ret _

/-- Setting a value does the same with the handles erased. -/
theorem setIfNotExistsWithTtl_erased (heap : Heap) (key : String) (value : UInt64)
    (ttl : Duration) : Erased server heap (setIfNotExistsWithTtl key value ttl).run
      (RedisCell.InternalRedisStore.setIfNotExistsWithTtl key value ttl).run := by
  -- The key is opened and asked whether it is empty on both sides.
  refine Program.Erases.inScope (RedisKeyWritable.openKeyWritable_acquires heap key)
    (fun {key key' opened} stands => ?_) RedisKeyWritable.drop_restores
  refine (RedisKeyWritable.isEmpty_erased stands.resolves).except_bind fun empty inside same => ?_
  -- The expiry is set in both branches.
  have expires : ∀ (res : Bool) (inside : Heap), inside.key key.keyInner = some key'.keyInner →
      Erased server inside ((pure res : RawM Bool) >>= fun res => do
        key.setExpire ttl
        return res).run ((pure res : RedisM Bool) >>= fun res => do
        key'.setExpire ttl
        return res).run := fun res inside resolves => by
    refine Program.Erases.except_bind (Program.erases_ret _) fun res inside' same' => ?_
    exact (RedisKeyWritable.setExpire_erased ((same'.key _).trans resolves) ttl).except_bind
      fun _ _ _ => Program.erases_ret _
  have resolves := (same.key _).trans stands.resolves
  cases empty with
  | false => exact expires false inside resolves
  | true =>
    exact (RedisKeyWritable.write_erased resolves _).except_bind fun _ inside' same' =>
      expires true inside' ((same'.key _).trans resolves)

/-- Every operation of the store does the same with the handles erased. -/
theorem perform_erased (op : StoreOp) (heap : Heap) :
    Erased server heap (perform op) (RedisCell.InternalRedisStore.perform op) := by
  -- Each operation has its own lemma.
  cases op with
  | getWithTime key => exact getWithTime_erased heap key
  | compareAndSwapWithTtl key old new ttl => exact compareAndSwapWithTtl_erased heap key old new ttl
  | setIfNotExistsWithTtl key value ttl => exact setIfNotExistsWithTtl_erased heap key value ttl

end InternalRedisStore

end Handled

/-- The calls that take no pointer. -/
def RedisOp.Bare : RedisOp → Prop
  | .openKey .. => False
  | .stringDma _ => False
  | .stringSet .. => False
  | .setExpire .. => False
  | _ => True

/-- A part of a reply takes no pointer, and its status is only looked at. -/
theorem invoke_handleStatus_bare {op : RedisOp} (bare : op.Bare) (message : String)
    (status : op.Answer → Status) :
    (invoke op >>= fun answer => handleStatus (status answer) message).run.Confined
      RedisOp.Bare := by
  -- Neither status asks for anything more.
  refine Program.Confined.except_bind (InternalRedisStore.invoke_confined bare) fun answer => ?_
  unfold handleStatus
  split <;> trivial

/-- The whole reply takes no pointer. -/
theorem reply_bare (throttled : Bool) (result : RateLimitResult) :
    (ThrottleCommand.reply throttled result).run.Confined RedisOp.Bare := by
  -- Each part of the reply takes a number or nothing.
  have array : (replyArray 5).run.Confined RedisOp.Bare :=
    invoke_handleStatus_bare (show (RedisOp.replyWithArray 5).Bare from trivial) _ id
  have integer : ∀ value, (replyInteger value).run.Confined RedisOp.Bare := fun value =>
    invoke_handleStatus_bare (show (RedisOp.replyWithLongLong value).Bare from trivial) _ id
  have replicate : replicateVerbatim.run.Confined RedisOp.Bare :=
    invoke_handleStatus_bare (show RedisOp.replicateVerbatim.Bare from trivial) _ id
  -- The parts follow each other in their order.
  refine Program.Confined.except_bind array fun _ => ?_
  refine Program.Confined.except_bind (integer _) fun _ => ?_
  refine Program.Confined.except_bind (integer _) fun _ => ?_
  refine Program.Confined.except_bind (integer _) fun _ => ?_
  refine Program.Confined.except_bind (integer _) fun _ => ?_
  exact Program.Confined.except_bind (integer _) fun _ => replicate

/-- A call that takes no pointer is the same over pointers. -/
theorem bare_erased {op : RedisOp} (bare : op.Bare) :
    Erased server heap op.bare (Program.lift op) := by
  -- The operations without pointers are asked of the server as they are.
  cases op with
  | openKey keyname mode => exact bare.elim
  | stringDma key => exact bare.elim
  | stringSet key str => exact bare.elim
  | setExpire key expire => exact bare.elim
  | replicateVerbatim => exact erased_ask id (fun _ => rfl) Program.erases_ret
  | replyWithArray len => exact erased_ask id (fun _ => rfl) Program.erases_ret
  | replyWithError err => exact erased_ask id (fun _ => rfl) Program.erases_ret
  | replyWithLongLong ll => exact erased_ask id (fun _ => rfl) Program.erases_ret
  | nowUtc => exact erased_ask id (fun _ => rfl) Program.erases_ret

/-- A computation that takes no pointer is the same over pointers. -/
theorem withoutPointers_erased {program : RedisM α} (bare : program.run.Confined RedisOp.Bare) :
    Erased server heap (withoutPointers program).run program.run := by
  show Erased server heap (program.run.translate RedisOp.bare) program.run
  -- Every question of the program is without pointers, by induction on it.
  generalize program.run = program at bare
  induction program generalizing heap with
  | ret value => exact Program.erases_ret value
  | abort => exact Program.erases_abort
  | ask op next ih =>
    exact (bare_erased bare.1).bind fun answer _ _ => ih answer (bare.2 answer)

namespace Handled

/-- The command does over pointers what it does without them. -/
theorem run_erased (heap : Heap) (args : List String) :
    Erased server heap (run args).run (ThrottleCommand.run args).run := by
  -- Words are parsed and replies are made without pointers, and the limiter keeps to its store.
  refine Program.Erases.except_bind (Program.erases_ret _) fun parsed inside _ => ?_
  refine Program.Erases.except_bind ?_ fun answer _ _ => withoutPointers_erased (reply_bare _ _)
  exact Program.Erases.translate InternalRedisStore.perform_erased _ inside

/-- A success ends the command, and an error is replied. -/
theorem respond_erased (heap : Heap) (args : List String) :
    Erased server heap (respond args) (throttleCommand.respond args) := by
  refine (run_erased heap args).bind fun outcome inside _ => ?_
  -- An error is told in the same words on both sides.
  cases outcome with
  | ok _ => exact Program.erases_ret _
  | error error => exact erased_ask id (fun _ => rfl) fun _ => Program.erases_ret _

/-- Arguments that a heap holds are decoded as they are, and left there. -/
theorem run_parseArgs {argv : List (Pointer .string)} {words : List ByteArray}
    (holds : List.Forall₂ (fun arg bytes => heap.strings arg.address = some bytes) argv words)
    (state : σ) : (parseArgs argv).run.run (Heap.handle server) (state, heap) =
      (some (RedisCell.parseArgs words), state, heap) := by
  -- The induction is on the arguments with the bytes that they stand for.
  induction holds with
  | nil => rfl
  | @cons arg bytes argv words held _ ih =>
    -- Reading a word leaves the heap as it is.
    have read : Heap.handle server (.stringPtrLen arg) (state, heap) = (some bytes, state, heap) := by
      simp only [Heap.handle, held]
      rfl
    have decoded : (manifestRedisString arg).run.run (Heap.handle server) (state, heap) =
        (some (fromUtf8 bytes), state, heap) := Program.run_ask _ _ read
    rw [parseArgs, RedisCell.parseArgs]
    -- The first word that is no text ends both.
    cases first : fromUtf8 bytes with
    | error error =>
      rw [first] at decoded
      exact Program.run_bind_error decoded
    | ok text =>
      rw [first] at decoded
      rw [Program.run_bind_ok decoded]
      cases others : RedisCell.parseArgs words with
      | error error =>
        rw [others] at ih
        exact Program.run_bind_error ih
      | ok rest =>
        rw [others] at ih
        exact Program.run_bind_ok ih

/--
Giving pointers back is all that sets the harness over pointers apart: whatever the server answers,
it has the outcome and makes the changes of the harness without pointers, and unless that panics it
leaves every string and every key as it was.
-/
theorem harness_erased (server : Handler RedisOp RedisOp.Answer σ) (heap : Heap)
    {argv : List (Pointer .string)} {words : List ByteArray}
    (holds : List.Forall₂ (fun arg bytes => heap.strings arg.address = some bytes) argv words)
    (state : σ) :
    let plain := (throttleCommand.harness words).run server state
    ∃ heap', (harness argv).run (Heap.handle server) (state, heap) = (plain.1, plain.2, heap') ∧
      (plain.1 ≠ none → heap'.strings = heap.strings ∧ heap'.keys = heap.keys) := by
  -- The words are decoded from the heap, and then the command responds.
  intro plain
  have erased : Erased server heap (harness argv) (throttleCommand.harness words) := by
    intro state
    rw [harness, Command.harness, Program.run_bind, run_parseArgs holds state]
    cases RedisCell.parseArgs words with
    -- Both harnesses panic over bytes that are no text.
    | error error => exact ⟨heap, rfl, fun impossible => absurd rfl impossible⟩
    | ok args => exact respond_erased heap args state
  obtain ⟨heap', ran, restored⟩ := erased state
  exact ⟨heap', ran, fun returns => ⟨(restored returns).strings, (restored returns).keys⟩⟩

/-- The documented command does the same with its handles erased. -/
theorem harness_erased_readme :
    let words := readmeWords.map String.toByteArray
    let plain := (throttleCommand.harness words).run Keyspace.handle Keyspace.empty
    ∃ heap', (harness (Heap.argv words)).run (Heap.handle Keyspace.handle)
        (Keyspace.empty, Heap.ofWords words) = (plain.1, plain.2, heap') ∧
      (plain.1 ≠ none → heap'.strings = (Heap.ofWords words).strings ∧
        heap'.keys = (Heap.ofWords words).keys) :=
  -- The heap holds the documented words and nothing else.
  harness_erased Keyspace.handle (Heap.ofWords (readmeWords.map String.toByteArray))
    (Heap.ofWords_holds _) Keyspace.empty

end Handled

end RedisCell
