import RedisCell.Cell.RedisStoreLaws
import RedisCell.Text.Numeral

/-! What a swap takes the content of a key for, and whether a read takes it for the same. -/

namespace RedisCell

open Interaction

namespace Keyspace

/-- The value that a swap compares with its old one, where an empty text stands for no value. -/
def candidate (keyspace : Keyspace) (name : String) : Except CellError (Option UInt64) :=
  match fromUtf8 (keyspace.bytes name) with
  | .error error => .error error
  | .ok text =>
    if text = "" then .ok none
    else match parseU64 text with
      | .error kind => .error (.parseInt kind)
      | .ok value => .ok (some value)

/-- What a swap from an old value answers for a candidate. -/
def swapAnswer (old : UInt64) (ttl : Duration) :
    Except CellError (Option UInt64) → Except CellError Bool
  | .error error => .error error
  | .ok none => .ok false
  | .ok (some value) => if value = old then (chargeAnswer ttl).map fun _ => true else .ok false

/-- A key is absent, or its bytes are not a text, or they are the text of a value. -/
def Classifiable (keyspace : Keyspace) (key : String) : Prop :=
  keyspace.live key = none ∨ ¬(keyspace.bytes key).IsValidUTF8 ∨
    ∃ value text, text.toByteArray = keyspace.bytes key ∧ IsTextOf text value

/-- A swap compares the value that the bytes of the key are a text of. -/
theorem candidate_value_iff (keyspace : Keyspace) (key : String) (value : UInt64) :
    keyspace.candidate key = .ok (some value) ↔
      ∃ text, text.toByteArray = keyspace.bytes key ∧ IsTextOf text value := by
  -- Decoding finds the one text that has these bytes.
  constructor
  · intro compared
    unfold candidate at compared
    cases decoded : fromUtf8 (keyspace.bytes key) with
    | error error => simp [decoded] at compared
    | ok text =>
      refine ⟨text, toByteArray_of_fromUtf8 decoded, ?_⟩
      rw [← parseU64_eq_ok_iff]
      simp only [decoded] at compared
      split at compared
      · cases compared
      · cases parsed : parseU64 text with
        | error kind => simp [parsed] at compared
        | ok other =>
          simp only [parsed, Except.ok.injEq, Option.some.injEq] at compared
          rw [compared]
  · intro holds
    obtain ⟨text, same, stands⟩ := holds
    have parsed := (parseU64_eq_ok_iff text value).mpr stands
    have nonempty : text ≠ "" := by
      intro same
      subst same
      cases parsed
    rw [candidate, ← same, fromUtf8_toByteArray]
    simp [nonempty, parsed]

/-- A read that does not panic yields what a swap compares. -/
theorem candidate_of_tatVal {keyspace : Keyspace} {key : String}
    {content : Except CellError (Option UInt64)} (reads : keyspace.tatVal key = some content) :
    keyspace.candidate key = content := by
  -- Either both fail to decode the text, or both go on to parse it.
  cases content with
  | error error =>
    -- The key is not a text, and both fail with the error of decoding it.
    rw [tatVal] at reads
    cases present : keyspace.live key with
    | none =>
      rw [present] at reads
      cases reads
    | some entry =>
      cases decoded : fromUtf8 (keyspace.bytes key) with
      | error reason =>
        simp only [present, decoded, Option.some.injEq, Except.error.injEq] at reads
        rw [candidate, decoded, reads]
      | ok text =>
        simp only [present, decoded] at reads
        split at reads <;> cases reads
  | ok found =>
    cases found with
    | none =>
      rw [candidate, bytes_of_absent reads]
      rfl
    | some value =>
      obtain ⟨text, decoded, parsed⟩ := text_of_present reads
      rw [candidate_value_iff]
      exact ⟨text, toByteArray_of_fromUtf8 decoded, (parseU64_eq_ok_iff text value).mp parsed⟩

/-- A read panics exactly on the contents that are not classifiable. -/
theorem tatVal_ne_none_iff (keyspace : Keyspace) (key : String) :
    keyspace.tatVal key ≠ none ↔ keyspace.Classifiable key := by
  -- An absent key and an undecodable one are classifiable, so only a text can panic.
  have decodes := fromUtf8_isOk_iff (keyspace.bytes key)
  unfold tatVal Classifiable
  cases keyspace.live key with
  | none => simp
  | some entry =>
    cases decoded : fromUtf8 (keyspace.bytes key) with
    | error error =>
      rw [decoded] at decodes
      simp only [reduceCtorEq, exists_false, false_iff] at decodes
      simp [decodes]
    | ok text =>
      have valid := decodes.mp ⟨text, decoded⟩
      have stored := toByteArray_of_fromUtf8 decoded
      -- The bytes are those of one text, so only that text can stand for a value.
      have only : (∃ value text', text'.toByteArray = keyspace.bytes key ∧ IsTextOf text' value) ↔
          ∃ value, parseU64 text = .ok value := by
        refine exists_congr fun value => ?_
        rw [parseU64_eq_ok_iff]
        constructor
        · intro holds
          obtain ⟨text', same, stands⟩ := holds
          rw [← same, fromUtf8_toByteArray, Except.ok.injEq] at decoded
          rwa [← decoded]
        · exact fun stands => ⟨text, stored, stands⟩
      rw [only]
      cases parsed : parseU64 text <;> simp [valid, parsed]

end Keyspace

namespace InternalRedisStore

open Keyspace

/-- A swap charges a key whose candidate is its old value, and no other. -/
theorem run_compareAndSwap_candidate (keyspace : Keyspace) (key : String) (old new : UInt64)
    (ttl : Duration) :
    (perform (.compareAndSwapWithTtl key old new ttl)).run Keyspace.handle keyspace =
      (some (swapAnswer old ttl (keyspace.candidate key)),
        if keyspace.candidate key = .ok (some old) then keyspace.put key (keyspace.charged new ttl)
        else keyspace) := by
  have opened : (RedisKeyWritable.openKeyWritable key).run.run Keyspace.handle keyspace =
      (some (.ok ⟨some ⟨key, .readWrite⟩⟩), keyspace) := rfl
  show (compareAndSwapWithTtl key old new ttl).run.run Keyspace.handle keyspace = _
  rw [compareAndSwapWithTtl, Program.run_bind_ok opened]
  unfold candidate
  -- The text is decoded, compared with the empty one, and parsed.
  cases decoded : fromUtf8 (keyspace.bytes key) with
  | error error =>
    simp only [reduceCtorEq, if_false]
    exact run_readKey_error decoded _
  | ok text =>
    rw [RedisKeyWritable.read, (readKey_proceeds decoded _).run]
    by_cases empty : text = ""
    · simp only [empty, beq_self_eq_true, if_true]
      rfl
    · simp only [beq_eq_false_iff_ne.mpr empty, Bool.false_eq_true, if_neg empty, if_false]
      cases parsed : parseU64 text with
      | error kind =>
        simp only [reduceCtorEq, if_false]
        rfl
      | ok value =>
        by_cases same : value = old
        · simp only [same, swapAnswer, beq_self_eq_true, if_true]
          exact run_charge keyspace key new ttl
        · simp only [swapAnswer, beq_eq_false_iff_ne.mpr same, Bool.false_eq_true, if_false,
            Except.ok.injEq, Option.some.injEq, if_neg same]
          rfl

/-- A server takes the content of a key for one and the same when it reads and when it swaps. -/
structure ClassifiesAlike {σ : Type} (server : Server σ) (state : σ) (key : String)
    (content : Except CellError (Option UInt64)) : Prop where
  /-- The read returns what the content is, without a panic. -/
  reads : ((perform (.getWithTime key)).run server.handle state).1.map
    (fun answer => answer.map Prod.fst) = some content
  /-- Every swap compares just that with its old value. -/
  swaps : ∀ old new ttl, ((perform (.compareAndSwapWithTtl key old new ttl)).run server.handle
    state).1 = some (swapAnswer old ttl content)
  /-- The content is a value exactly when the bytes of the key are a text of it. -/
  value_iff : ∀ value, content = .ok (some value) ↔
    ∃ text, text.toByteArray = (server.view state).bytes key ∧ IsTextOf text value
  /-- The content is nothing only when the key is absent or reads as empty. -/
  unset : content = .ok none →
    (server.view state).live key = none ∨ (server.view state).bytes key = ByteArray.empty

/-- A server's key is classified alike exactly when its content is classifiable. -/
theorem classifiesAlike_iff {σ : Type} (server : Server σ) (state : σ) (key : String) :
    (∃ content, ClassifiesAlike server state key content) ↔
      (server.view state).Classifiable key := by
  -- The server answers as its keyspace does.
  have answers : ∀ op, ((perform op).run server.handle state).1 =
      ((perform op).run Keyspace.handle (server.view state)).1 := fun op =>
    (congrArg Prod.fst (server.documented.run (perform op) state)).symm
  have read : ((perform (.getWithTime key)).run server.handle state).1.map
      (fun answer => answer.map Prod.fst) = (server.view state).tatVal key := by
    rw [answers, run_getWithTime]
    cases (server.view state).tatVal key with
    | none => rfl
    | some content => cases content <;> rfl
  rw [← tatVal_ne_none_iff]
  constructor
  · intro holds panics
    obtain ⟨content, alike⟩ := holds
    have reads := alike.reads
    rw [read, panics] at reads
    cases reads
  · intro answered
    obtain ⟨content, reads⟩ := Option.ne_none_iff_exists'.mp answered
    have same := candidate_of_tatVal reads
    refine ⟨content, read.trans reads, ?_, ?_, ?_⟩
    · intro old new ttl
      rw [answers, run_compareAndSwap_candidate, same]
    · intro value
      rw [← same]
      exact candidate_value_iff _ key value
    · intro same
      subst same
      exact Or.inr (bytes_of_absent reads)

/-- An empty value panics where it is read, and stands for no value where it is swapped. -/
theorem empty_value_panics :
    let keyspace := Keyspace.empty.put "user123" ⟨.text ByteArray.empty, none⟩
    ((perform (.getWithTime "user123")).run Keyspace.handle keyspace).1 = none ∧
      ((perform (.compareAndSwapWithTtl "user123" 1 2 Duration.zero)).run Keyspace.handle
        keyspace).1 = some (.ok false) ∧
      ¬∃ content, ClassifiesAlike Server.keyspace keyspace "user123" content := by
  -- The empty text is no number, and the read unwraps what it parses.
  intro keyspace
  have panics : ((perform (.getWithTime "user123")).run Keyspace.handle keyspace).1 = none := rfl
  refine ⟨panics, rfl, ?_⟩
  intro holds
  obtain ⟨content, alike⟩ := holds
  have reads := alike.reads
  rw [show Server.keyspace.handle = Keyspace.handle from rfl, panics] at reads
  cases reads

end InternalRedisStore

end RedisCell
