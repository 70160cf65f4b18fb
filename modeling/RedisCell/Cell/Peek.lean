import RedisCell.Cell.Run
import RedisCell.Gcra.Alike

/-! Calls that take nothing: they write to the store, and no other call can notice. -/

namespace RedisCell

open Gcra

/-- One call of any limiter, and the time its clock shows. -/
structure Visit where
  limiter : RateLimiter
  quantity : Int64
  now : OffsetDateTime

namespace Visit

/-- The time the call adds to the schedule. -/
def increment (visit : Visit) : Duration := visit.limiter.increment visit.quantity

/-- A call that takes nothing, at a time that a stored value can count. -/
def Peeks (visit : Visit) : Prop := visit.quantity = 0 ∧ 0 ≤ visit.now.nanos

/--
What a client is told by an outcome, without the two fields that show the history of its key when
the call could never be admitted.
-/
def told (visit : Visit) (outcome : MemoryStore.Outcome) : MemoryStore.Outcome :=
  outcome.map fun answer => answer.map fun (limited, result) =>
    if visit.increment ≤ visit.limiter.delayVariationTolerance then (limited, result)
    else (limited, { result with remaining := 0, resetAfter := Duration.zero })

end Visit

/-- The elements that a mask keeps, which are all of them beyond its end. -/
def retain {α : Type} : List Bool → List α → List α
  | [], elements => elements
  | _, [] => []
  | true :: mask, element :: rest => element :: retain mask rest
  | false :: mask, _ :: rest => retain mask rest

/-- Nothing is retained of nothing. -/
@[simp] theorem retain_nil {α : Type} (mask : List Bool) : retain mask ([] : List α) = [] := by
  cases mask <;> rfl

/-- The head of a mask decides the first element, and its tail the others. -/
theorem retain_cons {α : Type} (mask : List Bool) (element : α) (rest : List α) :
    retain mask (element :: rest) =
      if mask.headD true then element :: retain mask.tail rest else retain mask.tail rest := by
  -- An exhausted mask keeps the element, as one that begins with it does.
  rcases mask with _ | ⟨keep, mask⟩
  · simp [retain]
  · cases keep <;> simp [retain]

namespace MemoryStore

/-- Serve one call on a key. -/
def visit (store : MemoryStore) (key : String) (visit : Visit) : Outcome × MemoryStore :=
  store.rateLimit visit.limiter key visit.quantity visit.now

/-- What the clients of a run are told, in order. -/
def replies (key : String) : MemoryStore → List Visit → List Outcome
  | _, [] => []
  | store, visit :: rest =>
    visit.told (store.visit key visit).1 :: replies key (store.visit key visit).2 rest

/-- The store after a run. -/
def afterVisits (store : MemoryStore) (key : String) (visits : List Visit) : MemoryStore :=
  visits.foldl (fun store visit => (store.visit key visit).2) store

end MemoryStore

/-- The time a value stands for, once it lies ahead of now, is the instant that is due. -/
theorem readTat_of_ahead {tatVal : Option UInt64} {now : OffsetDateTime}
    (ahead : now.nanos < due (storedTat tatVal) now.nanos) :
    (readTat tatVal now).nanos = due (storedTat tatVal) now.nanos := by
  -- Only a value that is there can lie ahead.
  cases tatVal with
  | none => exact absurd ahead (lt_irrefl _)
  | some value =>
    simp only [readTat, fromNanoseconds_nanos, storedTat, Option.map_some, due_some] at ahead ⊢
    omega

namespace Visit

variable {visit : Visit} {tatVal tatVal' : Option UInt64}

/-- A refusal tells the same about two values that are due at the same instant. -/
theorem told_blocked
    (same : due (storedTat tatVal) visit.now.nanos = due (storedTat tatVal') visit.now.nanos)
    (blocks : visit.limiter.Blocks visit.increment tatVal visit.now) :
    visit.told (some (.ok (visit.limiter.report
        (visit.limiter.blocked visit.increment tatVal visit.now)))) =
      visit.told (some (.ok (visit.limiter.report
        (visit.limiter.blocked visit.increment tatVal' visit.now)))) := by
  -- A refusal depends on the new arrival time, which is the same for both.
  have scheduled := newTat_of_due visit.increment same
  by_cases within : visit.increment ≤ visit.limiter.delayVariationTolerance
  · -- A call within its tolerance is only refused by a value that lies ahead.
    rw [RateLimiter.blocks_iff, newTat_nanos] at blocks
    rw [Duration.le_iff] at within
    have ahead : visit.now.nanos < due (storedTat tatVal) visit.now.nanos := by omega
    have read : readTat tatVal visit.now = readTat tatVal' visit.now := by
      ext
      rw [readTat_of_ahead ahead, readTat_of_ahead (same ▸ ahead), same]
    rw [RateLimiter.blocked, RateLimiter.blocked, read, scheduled]
  · -- Beyond it the time on the key is not told.
    simp only [told, RateLimiter.report, RateLimiter.blocked, Option.map_some, Except.map,
      if_neg within]

end Visit

namespace MemoryStore

variable {store store' : MemoryStore} {key : String} {start : Int}

/-- A call without a rate fails, whatever its key holds. -/
theorem visit_zero {visit : Visit} (zero : visit.limiter.emissionInterval.nanos = 0)
    (store : MemoryStore) (key : String) :
    store.visit key visit = (some (.error (.generic "Zero rates are not supported")), store) := by
  -- Such a call never asks for the key.
  rw [MemoryStore.visit, rateLimit, RateLimiter.rateLimit_zero zero]
  rfl

/-- A call tells the same on two keys that are alike, and leaves them alike. -/
theorem visit_alike {visit : Visit} (alike : Alike start (store.tat key) (store'.tat key))
    (reached : start ≤ visit.now.nanos) :
    visit.told (store.visit key visit).1 = visit.told (store'.visit key visit).1 ∧
      Alike visit.now.nanos ((store.visit key visit).2.tat key)
        ((store'.visit key visit).2.tat key) := by
  -- Both keys give the same new arrival time, so both calls end alike.
  have same := alike visit.now.nanos reached
  have still := alike.mono reached
  by_cases zero : visit.limiter.emissionInterval.nanos = 0
  · rw [visit_zero zero, visit_zero zero]
    exact ⟨rfl, still⟩
  have blocking : visit.limiter.Blocks visit.increment (store.map key) visit.now ↔
      visit.limiter.Blocks visit.increment (store'.map key) visit.now :=
    visit.limiter.blocks_of_due visit.increment same
  by_cases blocks : visit.limiter.Blocks visit.increment (store.map key) visit.now
  · have refused : store.visit key visit = _ := rateLimit_blocked zero blocks
    have refused' : store'.visit key visit = _ := rateLimit_blocked zero (blocking.mp blocks)
    rw [refused, refused']
    exact ⟨Visit.told_blocked same blocks, still⟩
  · -- Both keys are given the same new value.
    have granted : store.visit key visit = _ := rateLimit_granted zero blocks
    have granted' : store'.visit key visit = _ := rateLimit_granted zero (mt blocking.mpr blocks)
    have scheduled := newTat_of_due visit.increment same
    rw [granted, granted', ← Visit.increment, RateLimiter.granted, RateLimiter.granted, scheduled]
    refine ⟨rfl, ?_⟩
    rw [tat, tat, insert_self, insert_self]
    exact Alike.refl _ _

/-- A peek leaves its key as good as it was. -/
theorem visit_peek {visit : Visit} (peeks : visit.Peeks) (store : MemoryStore) (key : String) :
    Alike visit.now.nanos ((store.visit key visit).2.tat key) (store.tat key) := by
  -- A peek that is let through writes the time that is due already.
  obtain ⟨nothing, afterEpoch⟩ := peeks
  by_cases zero : visit.limiter.emissionInterval.nanos = 0
  · rw [visit_zero zero]
    exact Alike.refl _ _
  by_cases blocks : visit.limiter.Blocks visit.increment (store.map key) visit.now
  · have refused : store.visit key visit = _ := rateLimit_blocked zero blocks
    rw [refused]
    exact Alike.refl _ _
  · -- What it writes is what is due, unless that is now and too late for a value to count.
    have granted : store.visit key visit = _ := rateLimit_granted zero blocks
    have free : (visit.limiter.increment visit.quantity).nanos = 0 := by
      rw [RateLimiter.increment_nanos, nothing]
      simp
    rw [granted, alike_iff, tat, tat, insert_self]
    simp only [storedTat, Option.map_some, due_some, nanoseconds_toNat, newTat_nanos, free,
      add_zero]
    cases store.map key with
    | none =>
      simp only [Option.map_none, due_none]
      omega
    | some value =>
      have bounded := value.toNat_lt
      simp only [Option.map_some, due_some]
      omega

/-- Peeks may be left out of a run that starts from keys that are alike. -/
theorem retain_alike {visits : List Visit} {kept : List Bool}
    (ordered : visits.Pairwise fun first second => first.now.nanos ≤ second.now.nanos)
    (peeks : ∀ pair ∈ visits.zip kept, pair.2 = false → pair.1.Peeks)
    (alike : Alike start (store.tat key) (store'.tat key))
    (reached : ∀ visit ∈ visits, start ≤ visit.now.nanos) :
    retain kept (store.replies key visits) = store'.replies key (retain kept visits) ∧
      ∀ now, start ≤ now → (∀ visit ∈ visits, visit.now.nanos ≤ now) →
        Alike now ((store.afterVisits key visits).tat key)
          ((store'.afterVisits key (retain kept visits)).tat key) := by
  -- The keys stay alike from the clock of each call on, whether or not it is left out.
  induction visits generalizing store store' kept start with
  | nil =>
    rw [replies, retain_nil, retain_nil]
    exact ⟨rfl, fun now later _ => alike.mono later⟩
  | cons visit rest ih =>
    obtain ⟨follow, ordered⟩ := List.pairwise_cons.mp ordered
    have reached := reached visit List.mem_cons_self
    have later : ∀ now, (∀ other ∈ visit :: rest, other.now.nanos ≤ now) →
        visit.now.nanos ≤ now ∧ ∀ other ∈ rest, other.now.nanos ≤ now :=
      fun now past => List.forall_mem_cons.mp past
    have peeks' : ∀ pair ∈ rest.zip kept.tail, pair.2 = false → pair.1.Peeks := by
      intro pair member
      apply peeks pair
      cases kept with
      | nil => simp at member
      | cons keep mask => exact List.mem_cons_of_mem _ member
    rw [replies, retain_cons, retain_cons]
    cases keep : kept.headD true with
    | true =>
      -- A call that stays finds both keys alike.
      obtain ⟨told, served⟩ := visit_alike alike reached
      obtain ⟨tells, ends⟩ := ih ordered peeks' served follow
      refine ⟨congrArg₂ List.cons told tells, fun now _ past => ?_⟩
      obtain ⟨current, past⟩ := later now past
      exact ends now current past
    | false =>
      -- A call that is left out has changed nothing for the others.
      have marked : (visit, false) ∈ (visit :: rest).zip kept := by
        cases kept with
        | nil => cases keep
        | cons first mask =>
          rw [← (show first = false from keep)]
          exact List.mem_cons_self
      have free := visit_peek (peeks _ marked rfl) store key
      obtain ⟨tells, ends⟩ := ih ordered peeks' (free.trans (alike.mono reached)) follow
      refine ⟨tells, fun now _ past => ?_⟩
      obtain ⟨current, past⟩ := later now past
      exact ends now current past

/--
Calls that take nothing are pure peeks: leaving any of them out of a run tells the clients of the
other calls the same, and leaves a key that is due at the same instants.
-/
theorem peeks_unnoticed (store : MemoryStore) (key : String) {visits : List Visit}
    {kept : List Bool}
    (ordered : visits.Pairwise fun first second => first.now.nanos ≤ second.now.nanos)
    (peeks : ∀ pair ∈ visits.zip kept, pair.2 = false → pair.1.Peeks) :
    retain kept (store.replies key visits) = store.replies key (retain kept visits) ∧
      ∀ now, (∀ visit ∈ visits, visit.now.nanos ≤ now) →
        due ((store.afterVisits key visits).tat key) now =
          due ((store.afterVisits key (retain kept visits)).tat key) now := by
  -- The run is compared with its retained part from the clock of its first call.
  cases visits with
  | nil =>
    rw [replies, retain_nil, retain_nil]
    exact ⟨rfl, fun _ _ => rfl⟩
  | cons first rest =>
    -- The run begins at the clock of its first call.
    have follow := (List.pairwise_cons.mp ordered).1
    have reached : ∀ visit ∈ first :: rest, first.now.nanos ≤ visit.now.nanos := by
      intro visit member
      rcases List.mem_cons.mp member with same | later
      · rw [same]
      · exact follow visit later
    obtain ⟨told, ends⟩ := retain_alike ordered peeks
      (Alike.refl first.now.nanos (store.tat key)) reached
    exact ⟨told, fun now past => ends now (past first List.mem_cons_self) past now le_rfl⟩

/-- A peek before the documented call changes neither its reply nor when its key is due. -/
theorem peeks_unnoticed_readme :
    let visits : List Visit := [⟨readmeQuota.limiter, 0, ⟨5⟩⟩, ⟨readmeQuota.limiter, 3, ⟨7⟩⟩]
    retain [false] (MemoryStore.new.replies "user123" visits) =
        MemoryStore.new.replies "user123" (retain [false] visits) ∧
      due ((MemoryStore.new.afterVisits "user123" visits).tat "user123") 9 =
        due ((MemoryStore.new.afterVisits "user123" (retain [false] visits)).tat "user123") 9 := by
  intro visits
  have ordered : visits.Pairwise fun first second => first.now.nanos ≤ second.now.nanos := by
    simp [visits]
  -- The first visit is the peek that is left out.
  have peeks : ∀ pair ∈ visits.zip [false], pair.2 = false → pair.1.Peeks := by
    intro pair member _
    rw [List.mem_singleton.mp member]
    exact ⟨rfl, by decide⟩
  obtain ⟨told, alike⟩ := peeks_unnoticed MemoryStore.new "user123" ordered peeks
  -- Both visits come before the instant asked about.
  refine ⟨told, alike 9 fun visit member => ?_⟩
  rcases List.mem_pair.mp member with rfl | rfl <;> decide

/-- Before the epoch a peek at an absent key writes a time far ahead, and the next call is limited. -/
theorem early_peek_noticed :
    let visits : List Visit := [⟨readmeQuota.limiter, 0, ⟨-1⟩⟩, ⟨readmeQuota.limiter, 1, ⟨0⟩⟩]
    let replies := MemoryStore.new.replies "user123" visits
    let others := MemoryStore.new.replies "user123" (retain [false] visits)
    replies.map Outcome.limited = [some false, some true] ∧
      others.map Outcome.limited = [some false] ∧ retain [false] replies ≠ others := by
  -- The peek stores the last instant that a value can count to.
  intro visits replies others
  have noticed : replies.map Outcome.limited = [some false, some true] := by decide
  have alone : others.map Outcome.limited = [some false] := by decide
  refine ⟨noticed, alone, ?_⟩
  intro same
  have limited : (retain [false] replies).map Outcome.limited = [some true] := by decide
  rw [same, alone] at limited
  cases limited

end MemoryStore

end RedisCell
