import RedisCell.Cell.Candidate
import RedisCell.Cell.Expiry

/-! The two stores behind one trait: when they answer alike, operation by operation. -/

namespace RedisCell

open Interaction Keyspace

/-- An operation of a store, made when the clock shows an instant. -/
structure Asked where
  now : OffsetDateTime
  op : StoreOp
  deriving DecidableEq

namespace Keyspace

/-- The keys hold the texts of a store's values, and nothing else. -/
def Encodes (keyspace : Keyspace) (store : MemoryStore) : Prop :=
  ∀ key, keyspace.Holds key (store.map key)

/-- No key has reached its deadline. -/
def Lasting (keyspace : Keyspace) : Prop := ∀ key, keyspace.live key = keyspace.entries key

variable {keyspace : Keyspace} {store : MemoryStore} {key : String}

/-- A key that lasts yields the value it encodes. -/
theorem Encodes.tatVal (encodes : keyspace.Encodes store) (lasting : keyspace.Lasting)
    (key : String) : keyspace.tatVal key = some (.ok (store.map key)) := by
  -- What a lasting key holds is readable.
  have holds := encodes key
  have readable := lasting key
  unfold Holds at holds
  cases stored : store.map key with
  | none =>
    rw [stored, Option.map_none, Option.map_eq_none_iff] at holds
    exact tatVal_of_absent holds
  | some value =>
    rw [stored] at holds
    obtain ⟨⟨content, expiry⟩, found, same⟩ := Option.map_eq_some_iff.mp holds
    simp only at same
    rw [found, same] at readable
    exact tatVal_of_live readable

/-- Writing a value's text under a key encodes the same write to the store. -/
theorem Encodes.put (encodes : keyspace.Encodes store) (key : String) (value : UInt64)
    (expiry : Option OffsetDateTime) :
    (keyspace.put key ⟨.text (u64ToString value).toByteArray, expiry⟩).Encodes
      (store.insert key value) := by
  -- The written key holds the new text, and every other key is untouched.
  intro other
  by_cases same : other = key
  · subst same
    rw [Holds, put_entries_self, MemoryStore.insert_self]
    rfl
  · have untouched := encodes other
    unfold Holds at untouched ⊢
    rw [MemoryStore.insert_of_ne store value same, ← untouched]
    simp [Keyspace.put, same]

/-- Giving a key another deadline keeps what it encodes. -/
theorem Encodes.put_expiry (encodes : keyspace.Encodes store) {entry : Entry}
    (found : keyspace.entries key = some entry) (expiry : Option OffsetDateTime) :
    (keyspace.put key { entry with expiry }).Encodes store := by
  -- The entry keeps its content.
  intro other
  have untouched := encodes other
  unfold Holds at untouched ⊢
  rw [← untouched]
  by_cases same : other = key
  · subst same
    rw [put_entries_self, found]
    rfl
  · simp [Keyspace.put, same]

end Keyspace

namespace InternalRedisStore

open Keyspace

/-- A deadline that the server accepts is set on any key that is there. -/
theorem run_setExpire_live {keyspace : Keyspace} {key : String} {entry : Entry}
    (found : keyspace.live key = some entry) {ttl : Duration} (accepted : chargeAnswer ttl = .ok ()) :
    (RedisKeyWritable.setExpire ⟨some ⟨key, .readWrite⟩⟩ ttl).run.run Keyspace.handle keyspace =
      (some (.ok ()), keyspace.put key { entry with expiry := keyspace.deadline ttl }) := by
  -- The server sets a deadline, or removes the one there was.
  have least : -1 ≤ (expireMillis ttl).toInt := by
    by_contra refused
    rw [chargeAnswer, if_neg refused] at accepted
    cases accepted
  have asked : keyspace.setExpire (some ⟨key, .readWrite⟩) (expireMillis ttl) =
      (.ok, keyspace.put key { entry with expiry := keyspace.deadline ttl }) := by
    simp only [Keyspace.setExpire, found, deadline]
    by_cases future : 0 ≤ (expireMillis ttl).toInt
    · rw [if_pos future, if_pos future]
    · have removal : expireMillis ttl = -1 := by
        have minusOne : (-1 : Int64).toInt = -1 := by decide
        exact Int64.toInt_inj.mp (by omega)
      rw [if_neg future, if_neg future, if_pos removal]
  have answered : Keyspace.handle (.setExpire (some ⟨key, .readWrite⟩) (expireMillis ttl)) keyspace =
      (some Status.ok, keyspace.put key { entry with expiry := keyspace.deadline ttl }) :=
    congrArg (fun answer : Status × Keyspace => (some answer.1, answer.2)) asked
  rw [RedisKeyWritable.setExpire]
  exact Program.run_bind_ok (run_invoke answered)

/-- Setting a key that holds a value only gives it a new deadline. -/
theorem run_setIfNotExists_present {keyspace : Keyspace} {key : String} {entry : Entry}
    {value : UInt64} (found : keyspace.live key = some entry)
    (reads : keyspace.tatVal key = some (.ok (some value))) {ttl : Duration}
    (accepted : chargeAnswer ttl = .ok ()) (other : UInt64) :
    (perform (.setIfNotExistsWithTtl key other ttl)).run Keyspace.handle keyspace =
      (some (.ok false), keyspace.put key { entry with expiry := keyspace.deadline ttl }) := by
  -- The text of a value is not empty.
  obtain ⟨text, decoded, parsed⟩ := text_of_present reads
  have nonempty : (text == "") = false := by
    rw [beq_eq_false_iff_ne]
    intro same
    subst same
    cases parsed
  have opened : (RedisKeyWritable.openKeyWritable key).run.run Keyspace.handle keyspace =
      (some (.ok ⟨some ⟨key, .readWrite⟩⟩), keyspace) := rfl
  have isEmpty : (RedisKeyWritable.isEmpty ⟨some ⟨key, .readWrite⟩⟩).run.run Keyspace.handle
      keyspace = (some (.ok false), keyspace) := by
    rw [RedisKeyWritable.isEmpty, RedisKeyWritable.read, (readKey_proceeds decoded _).run]
    simp only [nonempty]
    rfl
  show (setIfNotExistsWithTtl key other ttl).run.run Keyspace.handle keyspace = _
  rw [setIfNotExistsWithTtl, Program.run_bind_ok opened, Program.run_bind_ok isEmpty]
  exact Program.run_bind_ok (run_setExpire_live found accepted)

end InternalRedisStore

/-- The operation that a memory store carries out when the clock shows an instant. -/
def MemoryStore.ask (store : MemoryStore) (asked : Asked) :
    Option asked.op.Answer × MemoryStore := handle asked.now asked.op store

/-- A swap succeeds exactly on a key that holds its old value. -/
def MemoryStore.SwapsOld (store : MemoryStore) : (op : StoreOp) → Option op.Answer → Prop
  | .compareAndSwapWithTtl key old _ _, answer =>
    answer = some (Except.ok (ε := CellError) true) ↔ store.map key = some old
  | _, _ => True

/-- An operation does not swap a key that has no value. -/
def MemoryStore.SwapsPresent (store : MemoryStore) : StoreOp → Prop
  | .compareAndSwapWithTtl key .. => store.map key ≠ none
  | _ => True

/-- Answer one operation as `handle` does, except that a swap fails on a key without a value. -/
def MemoryStore.handleStrict (now : OffsetDateTime) :
    Handler StoreOp StoreOp.Answer MemoryStore
  | .compareAndSwapWithTtl key old new _, store =>
    if store.map key = some old then (some (.ok true), store.insert key new)
    else (some (.ok false), store)
  | op, store => handle now op store

namespace MemoryStore

variable {store : MemoryStore}

/-- A swap of a key that has a value, in memory, is a strict one. -/
theorem handleStrict_of_present {op : StoreOp} {now : OffsetDateTime}
    (present : store.SwapsPresent op) : handleStrict now op store = handle now op store := by
  -- The rules differ only on an absent key.
  cases op with
  | getWithTime key => rfl
  | setIfNotExistsWithTtl key value ttl => rfl
  | compareAndSwapWithTtl key old new ttl =>
    obtain ⟨value, stored⟩ := Option.ne_none_iff_exists'.mp present
    by_cases same : value = old
    · simp [handleStrict, handle, compareAndSwapWithTtl, stored, same]
    · simp [handleStrict, handle, compareAndSwapWithTtl, stored, same]

/-- A swap of a key that has a value succeeds exactly when this is the old one. -/
theorem swapsOld_of_present {asked : Asked} (present : store.SwapsPresent asked.op) :
    store.SwapsOld asked.op (store.ask asked).1 := by
  -- A strict swap tests for the old value itself.
  obtain ⟨now, op⟩ := asked
  cases op with
  | getWithTime key => trivial
  | setIfNotExistsWithTtl key value ttl => trivial
  | compareAndSwapWithTtl key old new ttl =>
    rw [ask, ← handleStrict_of_present present]
    by_cases same : store.map key = some old
    · simp only [SwapsOld, handleStrict, if_pos same]
      exact iff_of_true rfl same
    · simp only [SwapsOld, handleStrict, if_neg same]
      exact iff_of_false nofun same

end MemoryStore

/-- The server accepts the expiry that an operation asks for. -/
def StoreOp.Accepted : StoreOp → Prop
  | .getWithTime _ => True
  | .compareAndSwapWithTtl _ _ _ ttl => chargeAnswer ttl = .ok ()
  | .setIfNotExistsWithTtl _ _ ttl => chargeAnswer ttl = .ok ()

namespace Keyspace

variable {keyspace : Keyspace} {store : MemoryStore}

/-- What the store in a keyspace answers when the clock shows an instant. -/
def ask (keyspace : Keyspace) (asked : Asked) : Option asked.op.Answer × Keyspace :=
  InternalRedisStore.onKeyspace asked.op (keyspace.wait asked.now)

/-- A read finds the same value in both stores. -/
theorem Encodes.ask_get (encodes : keyspace.Encodes store) (now : OffsetDateTime) (key : String)
    (lasting : (keyspace.wait now).Lasting) :
    keyspace.ask ⟨now, .getWithTime key⟩ =
      (some (.ok (store.map key, now)), keyspace.wait now) := by
  -- Waiting changes no content.
  have waited : (keyspace.wait now).Encodes store := encodes
  exact InternalRedisStore.answered_getWithTime (waited.tatVal lasting key)

/-- A swap in the keyspace succeeds exactly on a key that holds its old value. -/
theorem Encodes.ask_swap (encodes : keyspace.Encodes store) {now : OffsetDateTime}
    (lasting : (keyspace.wait now).Lasting) {ttl : Duration} (accepted : chargeAnswer ttl = .ok ())
    (key : String) (old new : UInt64) :
    keyspace.ask ⟨now, .compareAndSwapWithTtl key old new ttl⟩ =
      (some (.ok (decide (store.map key = some old))),
        if store.map key = some old then
          (keyspace.wait now).put key ((keyspace.wait now).charged new ttl)
        else keyspace.wait now) := by
  -- The candidate of the key is the value that it encodes.
  have waited : (keyspace.wait now).Encodes store := encodes
  have candidate := candidate_of_tatVal (waited.tatVal lasting key)
  have ran := InternalRedisStore.run_compareAndSwap_candidate (keyspace.wait now) key old new ttl
  rw [candidate] at ran
  simp only [Except.ok.injEq] at ran
  refine ran.trans (congrArg₂ Prod.mk (congrArg some ?_) rfl)
  -- An absent key is not swapped, and neither is one that holds another value.
  cases stored : store.map key with
  | none => rfl
  | some value =>
    by_cases same : value = old
    · simp only [swapAnswer, accepted, same, decide_true]
      rfl
    · simp [swapAnswer, same]

/-- Setting in the keyspace succeeds exactly on a key without a value. -/
theorem Encodes.ask_set (encodes : keyspace.Encodes store) {now : OffsetDateTime}
    (lasting : (keyspace.wait now).Lasting) {ttl : Duration} (accepted : chargeAnswer ttl = .ok ())
    (key : String) (value : UInt64) :
    let asked := keyspace.ask ⟨now, .setIfNotExistsWithTtl key value ttl⟩
    let set := store.setIfNotExistsWithTtl key value
    asked.1 = some set.1 ∧ asked.2.Encodes set.2 := by
  -- The text of a value is never empty, so the emptiness test finds any value.
  intro asked set
  have waited : (keyspace.wait now).Encodes store := encodes
  have reads := waited.tatVal lasting key
  cases stored : store.map key with
  | none =>
    rw [stored] at reads
    have ran : asked = _ := InternalRedisStore.run_setIfNotExists reads value ttl
    have inserted : set = _ := MemoryStore.setIfNotExists_absent stored value
    rw [ran, inserted, accepted]
    exact ⟨rfl, waited.put key value _⟩
  | some other =>
    rw [stored] at reads
    have holds := waited key
    rw [Holds, stored] at holds
    obtain ⟨entry, found, _⟩ := Option.map_eq_some_iff.mp holds
    have readable : (keyspace.wait now).live key = some entry := (lasting key).trans found
    have ran : asked = _ :=
      InternalRedisStore.run_setIfNotExists_present readable reads accepted value
    have kept : set = (.ok false, store) := by simp [set, MemoryStore.setIfNotExistsWithTtl, stored]
    rw [ran, kept]
    exact ⟨rfl, waited.put_expiry found _⟩

/-- The store in a keyspace answers strictly, and encodes the same values after it. -/
theorem Encodes.ask_strict (encodes : keyspace.Encodes store) {asked : Asked}
    (lasting : (keyspace.wait asked.now).Lasting) (accepted : asked.op.Accepted) :
    (keyspace.ask asked).1 = (MemoryStore.handleStrict asked.now asked.op store).1 ∧
      (keyspace.ask asked).2.Encodes (MemoryStore.handleStrict asked.now asked.op store).2 := by
  -- Each operation has its own lemma about the keyspace.
  obtain ⟨now, op⟩ := asked
  cases op with
  | getWithTime key =>
    rw [encodes.ask_get now key lasting]
    exact ⟨rfl, encodes⟩
  | compareAndSwapWithTtl key old new ttl =>
    have waited : (keyspace.wait now).Encodes store := encodes
    rw [encodes.ask_swap lasting accepted key old new]
    by_cases same : store.map key = some old
    · rw [if_pos same, decide_eq_true same]
      simp only [MemoryStore.handleStrict, if_pos same]
      exact ⟨trivial, waited.put key new _⟩
    · rw [if_neg same, decide_eq_false same]
      simp only [MemoryStore.handleStrict, if_neg same]
      exact ⟨trivial, waited⟩
  | setIfNotExistsWithTtl key value ttl =>
    exact encodes.ask_set lasting accepted key value

/-- The two stores answer an operation alike, and encode the same values after it. -/
theorem Encodes.ask_agrees (encodes : keyspace.Encodes store) {asked : Asked}
    (lasting : (keyspace.wait asked.now).Lasting) (accepted : asked.op.Accepted)
    (present : store.SwapsPresent asked.op) :
    (keyspace.ask asked).1 = (store.ask asked).1 ∧
      store.SwapsOld asked.op (store.ask asked).1 ∧
      (keyspace.ask asked).2.Encodes (store.ask asked).2 := by
  -- On a key that is present the memory store is a strict one.
  have strict := encodes.ask_strict lasting accepted
  rw [MemoryStore.handleStrict_of_present present] at strict
  exact ⟨strict.1, MemoryStore.swapsOld_of_present present, strict.2⟩

/-- A swap of a key without a value succeeds in memory, and in the keyspace it does not. -/
theorem Encodes.ask_disagrees (encodes : keyspace.Encodes store) {asked : Asked}
    (lasting : (keyspace.wait asked.now).Lasting) (accepted : asked.op.Accepted)
    (absent : ¬store.SwapsPresent asked.op) : (keyspace.ask asked).1 ≠ (store.ask asked).1 := by
  -- Only a swap can meet an absent key.
  obtain ⟨now, op⟩ := asked
  cases op with
  | getWithTime key => exact absurd trivial absent
  | setIfNotExistsWithTtl key value ttl => exact absurd trivial absent
  | compareAndSwapWithTtl key old new ttl =>
    have none_ : store.map key = none := not_not.mp absent
    have swapped : (store.ask ⟨now, .compareAndSwapWithTtl key old new ttl⟩).1 =
        some (.ok true) := by
      simp [MemoryStore.ask, MemoryStore.handle, MemoryStore.compareAndSwapWithTtl, none_]
    rw [encodes.ask_swap lasting accepted key old new, swapped, none_]
    intro same
    cases same

end Keyspace

/-- No operation of a run swaps a key that has no value then. -/
def MemoryStore.SwapsPresentKeys : MemoryStore → List Asked → Prop
  | _, [] => True
  | store, asked :: rest => store.SwapsPresent asked.op ∧ SwapsPresentKeys (store.ask asked).2 rest

namespace Server

variable {σ : Type}

/-- What the store in a server answers when the clock shows an instant. -/
def ask (server : Server σ) (state : σ) (asked : Asked) : Option asked.op.Answer × σ :=
  (InternalRedisStore.perform asked.op).run server.handle (server.wait state asked.now)

/-- The store in a server answers as the one in its keyspace. -/
theorem ask_view (server : Server σ) (state : σ) (asked : Asked) :
    (server.view state).ask asked =
      ((server.ask state asked).1, server.view (server.ask state asked).2) := by
  -- The server waits and answers as its keyspace does.
  rw [Keyspace.ask, ← server.waits]
  exact server.documented.run _ _

/-- Throughout a run no key reaches its deadline, and the server accepts every expiry. -/
def Lasts (server : Server σ) : σ → List Asked → Prop
  | _, [] => True
  | state, asked :: rest =>
    ((server.view state).wait asked.now).Lasting ∧ asked.op.Accepted ∧
      Lasts server (server.ask state asked).2 rest

/--
The store in a server and a memory store implement one contract throughout a run: they answer every
operation alike, a swap succeeds exactly on a key that holds its old value, and both end with the
same values.
-/
def AgreesWith (server : Server σ) : σ → MemoryStore → List Asked → Prop
  | state, store, [] => (server.view state).Encodes store
  | state, store, asked :: rest =>
    (server.ask state asked).1 = (store.ask asked).1 ∧
      store.SwapsOld asked.op (store.ask asked).1 ∧
      AgreesWith server (server.ask state asked).2 (store.ask asked).2 rest

/-- The two stores implement one contract in exactly the runs that swap no absent key. -/
theorem agreesWith_iff (server : Server σ) {state : σ} {store : MemoryStore}
    (encodes : (server.view state).Encodes store) {run : List Asked}
    (lasts : server.Lasts state run) :
    server.AgreesWith state store run ↔ store.SwapsPresentKeys run := by
  -- As long as no absent key is swapped, the stores go on encoding the same values.
  induction run generalizing state store with
  | nil => exact iff_of_true encodes trivial
  | cons asked rest ih =>
    obtain ⟨lasting, accepted, later⟩ := lasts
    have answered := server.ask_view state asked
    by_cases present : store.SwapsPresent asked.op
    · obtain ⟨answers, swaps, encoded⟩ := encodes.ask_agrees lasting accepted present
      rw [answered] at answers encoded
      rw [AgreesWith, MemoryStore.SwapsPresentKeys, ← ih encoded later]
      exact ⟨fun agrees => ⟨present, agrees.2.2⟩, fun rest => ⟨answers, swaps, rest.2⟩⟩
    · have differs := encodes.ask_disagrees lasting accepted present
      rw [answered] at differs
      exact iff_of_false (fun agrees => differs agrees.1) fun swaps => present swaps.1

end Server

/-- A charge of an hour, and the swap that follows it. -/
def readmeAsked : List Asked :=
  [⟨⟨5⟩, .setIfNotExistsWithTtl "user123" 7 (Duration.seconds 3600)⟩,
    ⟨⟨6⟩, .compareAndSwapWithTtl "user123" 7 9 (Duration.seconds 3600)⟩]

/-- A key that is set and then swapped is one thing to both stores. -/
theorem agreesWith_readme :
    Server.keyspace.AgreesWith Keyspace.empty MemoryStore.new readmeAsked ↔
      MemoryStore.new.SwapsPresentKeys readmeAsked := by
  -- Both operations are about the one key, and the second finds it present.
  apply Server.agreesWith_iff
  · intro key
    rfl
  · -- The one key that is set reaches its deadline an hour later.
    refine ⟨fun key => rfl, rfl, ?_, rfl, trivial⟩
    intro key
    by_cases same : key = "user123"
    · rw [same]
      rfl
    · have absent : ((Server.keyspace.ask Keyspace.empty ⟨⟨5⟩, .setIfNotExistsWithTtl "user123" 7
          (Duration.seconds 3600)⟩).2.wait ⟨6⟩).entries key = none := by
        apply (Function.update_of_ne same _ _).trans
        exact Function.update_of_ne same _ _
      exact (congrArg (Option.filter _) absent).trans absent.symm

/-- A swap of an absent key succeeds in memory and fails in the server. -/
theorem absent_swap_differs :
    let swap : Asked := ⟨⟨5⟩, .compareAndSwapWithTtl "user123" 123 124 (Duration.seconds 3600)⟩
    (MemoryStore.new.ask swap).1 = some (.ok true) ∧
      (Server.keyspace.ask Keyspace.empty swap).1 = some (.ok false) ∧
      ¬Server.keyspace.AgreesWith Keyspace.empty MemoryStore.new [swap] := by
  -- One store takes an absent key for an unchanged one, and the other does not.
  intro swap
  have memory : (MemoryStore.new.ask swap).1 = some (.ok true) := rfl
  have redis : (Server.keyspace.ask Keyspace.empty swap).1 = some (.ok false) := rfl
  refine ⟨memory, redis, ?_⟩
  intro agrees
  have same := agrees.1
  rw [memory, redis] at same
  cases same

end RedisCell
