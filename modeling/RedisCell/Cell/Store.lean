import RedisCell.Error
import RedisCell.Time.Duration
import RedisCell.Interaction.Program
import Mathlib.Logic.Function.Basic

/-! The atomic operations a limiter asks of its store, and the store that keeps every value. -/

namespace RedisCell

open Interaction

/-- The operations of the `Store` trait that decide a call. -/
inductive StoreOp where
  /-- Read a key together with the time at the store. -/
  | getWithTime (key : String)
  /-- Replace a known old value by a new one. -/
  | compareAndSwapWithTtl (key : String) (old new : UInt64) (ttl : Duration)
  /-- Give a value to a key that has none. -/
  | setIfNotExistsWithTtl (key : String) (value : UInt64) (ttl : Duration)
  deriving DecidableEq

/-- What each store operation answers. -/
def StoreOp.Answer : StoreOp → Type
  | .getWithTime _ => Except CellError (Option UInt64 × OffsetDateTime)
  | .compareAndSwapWithTtl .. => Except CellError Bool
  | .setIfNotExistsWithTtl .. => Except CellError Bool

/-- A fallible computation over a store. -/
abbrev StoreM := ExceptT CellError (Program StoreOp StoreOp.Answer)

/-- `Store::get_with_time`. -/
def getWithTime (key : String) : StoreM (Option UInt64 × OffsetDateTime) :=
  ExceptT.mk (Program.lift (StoreOp.getWithTime key))

/-- `Store::compare_and_swap_with_ttl`. -/
def compareAndSwapWithTtl (key : String) (old new : UInt64) (ttl : Duration) : StoreM Bool :=
  ExceptT.mk (Program.lift (StoreOp.compareAndSwapWithTtl key old new ttl))

/-- `Store::set_if_not_exists_with_ttl`. -/
def setIfNotExistsWithTtl (key : String) (value : UInt64) (ttl : Duration) : StoreM Bool :=
  ExceptT.mk (Program.lift (StoreOp.setIfNotExistsWithTtl key value ttl))

/-- A store that keeps its values in memory for as long as it lives. -/
structure MemoryStore where
  map : String → Option UInt64

namespace MemoryStore

/-- `MemoryStore::new`. -/
def new : MemoryStore := ⟨fun _ => none⟩

/-- `HashMap::insert`. -/
def insert (store : MemoryStore) (key : String) (value : UInt64) : MemoryStore :=
  ⟨Function.update store.map key (some value)⟩

/-- Swap a value unless the key holds a different one. -/
def compareAndSwapWithTtl (store : MemoryStore) (key : String) (old new : UInt64) :
    Except CellError Bool × MemoryStore :=
  -- An absent key is not a different value, so it is given the new one.
  if ∃ n, store.map key = some n ∧ n ≠ old then (.ok false, store)
  else (.ok true, store.insert key new)

/-- Set a value only on a key without one. -/
def setIfNotExistsWithTtl (store : MemoryStore) (key : String) (value : UInt64) :
    Except CellError Bool × MemoryStore :=
  -- Whatever value a key has, it keeps.
  match store.map key with
  | some _ => (.ok false, store)
  | none => (.ok true, store.insert key value)

/-- Answer one operation when the clock shows `now`, ignoring every TTL. -/
def handle (now : OffsetDateTime) : Handler StoreOp StoreOp.Answer MemoryStore
  | .getWithTime key, store => (some (.ok (store.map key, now)), store)
  | .compareAndSwapWithTtl key old new _, store =>
    let (answer, store) := store.compareAndSwapWithTtl key old new
    (some answer, store)
  | .setIfNotExistsWithTtl key value _, store =>
    let (answer, store) := store.setIfNotExistsWithTtl key value
    (some answer, store)

/-- A value is found where it is written. -/
@[simp] theorem insert_self (store : MemoryStore) (key : String) (value : UInt64) :
    (store.insert key value).map key = some value := by
  simp [insert]

/-- The values of other keys stay as they are. -/
@[simp] theorem insert_of_ne (store : MemoryStore) {key other : String} (value : UInt64)
    (different : other ≠ key) : (store.insert key value).map other = store.map other := by
  simp [insert, different]

/-- Swapping the value a key holds always succeeds. -/
theorem compareAndSwap_present {store : MemoryStore} {key : String} {old : UInt64}
    (present : store.map key = some old) (new : UInt64) :
    store.compareAndSwapWithTtl key old new = (.ok true, store.insert key new) := by
  -- The only value the key holds is the expected one.
  simp [compareAndSwapWithTtl, present]

/-- Setting an absent key always succeeds. -/
theorem setIfNotExists_absent {store : MemoryStore} {key : String}
    (absent : store.map key = none) (value : UInt64) :
    store.setIfNotExistsWithTtl key value = (.ok true, store.insert key value) := by
  simp [setIfNotExistsWithTtl, absent]

end MemoryStore

end RedisCell
