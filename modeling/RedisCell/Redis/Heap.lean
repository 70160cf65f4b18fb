import RedisCell.Redis.Handles
import Mathlib.Data.List.Forall2

/-! A server that keeps what its pointers point to, and stops at a pointer that it has not given. -/

namespace RedisCell

open Interaction

/-- What the pointers of a server point to. -/
structure Heap where
  /-- The first address that has never been given. -/
  next : Nat
  strings : Nat → Option ByteArray
  keys : Nat → Option RedisModuleKey
  unused : ∀ address, next ≤ address → strings address = none ∧ keys address = none

namespace Heap

/-- A heap with one more string. -/
def allocString (heap : Heap) (bytes : ByteArray) : Heap where
  next := heap.next + 1
  strings := Function.update heap.strings heap.next (some bytes)
  keys := heap.keys
  unused := by
    intro address beyond
    rw [Function.update_of_ne (by omega)]
    exact heap.unused address (by omega)

/-- A heap with one more open key. -/
def allocKey (heap : Heap) (key : RedisModuleKey) : Heap where
  next := heap.next + 1
  strings := heap.strings
  keys := Function.update heap.keys heap.next (some key)
  unused := by
    intro address beyond
    rw [Function.update_of_ne (by omega)]
    exact heap.unused address (by omega)

/-- A heap without one of its strings. -/
def freeString (heap : Heap) (address : Nat) : Heap where
  next := heap.next
  strings := Function.update heap.strings address none
  keys := heap.keys
  unused := by
    intro other beyond
    obtain ⟨noString, noKey⟩ := heap.unused other beyond
    refine ⟨?_, noKey⟩
    by_cases same : other = address
    · rw [same, Function.update_self]
    · rw [Function.update_of_ne same, noString]

/-- A heap without one of its keys. -/
def freeKey (heap : Heap) (address : Nat) : Heap where
  next := heap.next
  strings := heap.strings
  keys := Function.update heap.keys address none
  unused := by
    intro other beyond
    obtain ⟨noString, noKey⟩ := heap.unused other beyond
    refine ⟨noString, ?_⟩
    by_cases same : other = address
    · rw [same, Function.update_self]
    · rw [Function.update_of_ne same, noKey]

/-- A heap that holds the words of one command. -/
def ofWords (words : List ByteArray) : Heap where
  next := words.length
  strings := fun address => words[address]?
  keys := fun _ => none
  unused := fun _ beyond => ⟨List.getElem?_eq_none beyond, rfl⟩

/-- The pointers to the words of one command. -/
def argv (words : List ByteArray) : List (Pointer .string) :=
  (List.range words.length).map Pointer.mk

/-- The pointers lead to the words, in their order. -/
theorem ofWords_holds (words : List ByteArray) :
    List.Forall₂ (fun arg bytes => (ofWords words).strings arg.address = some bytes)
      (argv words) words := by
  -- The address of a word is its place in the list.
  rw [List.forall₂_iff_get]
  refine ⟨by simp [argv], fun index inside _ => ?_⟩
  simp [argv, ofWords]

/-- The key behind a pointer, where a null pointer stands for no key. -/
def key (heap : Heap) : Option (Pointer .key) → Option (Option RedisModuleKey)
  | none => some none
  | some pointer => (heap.keys pointer.address).map some

/-- The text of a string, which is all that the crate creates. -/
def text (heap : Heap) (str : Pointer .string) : Option String :=
  (heap.strings str.address).bind String.fromUTF8?

variable {σ : Type}

/-- Answer a call with what the server answers, unless that call takes it down. -/
def answer {α β : Type} (heap : Heap) (convert : α → β) (reply : Option α × σ) :
    Option β × (σ × Heap) :=
  (reply.1.map convert, reply.2, heap)

/-- Answer each function by what its pointers point to, and go down over any other pointer. -/
def handle (server : Handler RedisOp RedisOp.Answer σ) : Handler RawOp RawOp.Answer (σ × Heap)
  | .createString str, (state, heap) =>
    (some (Pointer.mk heap.next), state, heap.allocString str.toByteArray)
  | .freeString str, (state, heap) =>
    match heap.strings str.address with
    | some _ => (some (), state, heap.freeString str.address)
    | none => (none, state, heap)
  | .stringPtrLen str, (state, heap) => (heap.strings str.address, state, heap)
  | .openKey keyname mode, (state, heap) =>
    match heap.text keyname with
    | some name =>
      match server (.openKey name mode) state with
      | (some (some key), state) =>
        (some (some (Pointer.mk heap.next)), state, heap.allocKey key)
      | (some none, state) => (some none, state, heap)
      | (none, state) => (none, state, heap)
    | none => (none, state, heap)
  -- A null pointer is closed without complaint.
  | .closeKey none, (state, heap) => (some (), state, heap)
  | .closeKey (some kp), (state, heap) =>
    match heap.keys kp.address with
    | some _ => (some (), state, heap.freeKey kp.address)
    | none => (none, state, heap)
  | .stringDma key, (state, heap) =>
    match heap.key key with
    | some key => heap.answer id (server (.stringDma key) state)
    | none => (none, state, heap)
  | .stringSet key str, (state, heap) =>
    match heap.key key, heap.text str with
    | some key, some text => heap.answer id (server (.stringSet key text) state)
    | _, _ => (none, state, heap)
  | .setExpire key expire, (state, heap) =>
    match heap.key key with
    | some key => heap.answer id (server (.setExpire key expire) state)
    | none => (none, state, heap)
  | .replicateVerbatim, (state, heap) => heap.answer id (server .replicateVerbatim state)
  | .replyWithArray len, (state, heap) => heap.answer id (server (.replyWithArray len) state)
  | .replyWithError err, (state, heap) => heap.answer id (server (.replyWithError err) state)
  | .replyWithLongLong ll, (state, heap) => heap.answer id (server (.replyWithLongLong ll) state)
  | .nowUtc, (state, heap) => heap.answer id (server .nowUtc state)
  -- The remaining functions are not among those that the command calls.
  | .replyWithString _, state => (none, state)
  | .call .., state => (none, state)
  | .callReplyType _, state => (none, state)
  | .callReplyInteger _, state => (none, state)
  | .callReplyStringPtr _, state => (none, state)
  | .freeCallReply _, state => (none, state)

/-- Two heaps hold the same behind every pointer. -/
structure Same (heap heap' : Heap) : Prop where
  strings : heap.strings = heap'.strings
  keys : heap.keys = heap'.keys

instance : Std.Refl Same := ⟨fun _ => ⟨rfl, rfl⟩⟩

instance : IsTrans Heap Same :=
  ⟨fun _ _ _ one two => ⟨one.strings.trans two.strings, one.keys.trans two.keys⟩⟩

/-- A pointer leads to the same key in both heaps. -/
theorem Same.key {heap heap' : Heap} (same : heap.Same heap') (pointer : Option (Pointer .key)) :
    heap.key pointer = heap'.key pointer := by
  -- A null pointer leads nowhere in either heap.
  cases pointer with
  | none => rfl
  | some pointer => rw [Heap.key, Heap.key, same.keys]

/-- A string that is created holds its text. -/
theorem allocString_text (heap : Heap) (str : String) :
    (heap.allocString str.toByteArray).text ⟨heap.next⟩ = some str := by
  simp [text, allocString, String.fromUTF8?, str.isValidUTF8, String.fromUTF8]

end Heap

end RedisCell
