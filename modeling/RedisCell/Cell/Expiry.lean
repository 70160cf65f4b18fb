import RedisCell.Cell.RedisStoreLaws
import RedisCell.Cell.Run

/-! Runs over keys that expire decide as runs over keys that do not, unless a debt is forgotten. -/

namespace RedisCell

open Interaction Keyspace

/-- What a client is told about its demand: whether it is limited, and how long to wait. -/
def MemoryStore.Outcome.decision : MemoryStore.Outcome → Option (Bool × Duration)
  | some (.ok (limited, result)) => some (limited, result.retryAfter)
  | _ => none

/-- The outcomes of a run of calls on a key that never expires, in order. -/
def MemoryStore.outcomes (key : String) : MemoryStore → List Demand → List Outcome
  | _, [] => []
  | store, demand :: rest =>
    (store.answer key demand).1 :: outcomes key (store.answer key demand).2 rest

namespace Server

variable {σ : Type}

/-- Serve one call on a key of the server. -/
def serve (server : Server σ) (key : String) (state : σ) (demand : Demand) :
    MemoryStore.Outcome × σ :=
  (InternalRedisStore.carryOut (demand.quota.limiter.rateLimit key demand.quantity)).run.run
    server.handle (server.wait state demand.now)

/-- The outcomes of a run of calls, in order. -/
def outcomes (server : Server σ) (key : String) : σ → List Demand → List MemoryStore.Outcome
  | _, [] => []
  | state, demand :: rest =>
    (server.serve key state demand).1 ::
      outcomes server key (server.serve key state demand).2 rest

/-- A server serves a call as its keyspace does. -/
theorem serve_view (server : Server σ) (key : String) (state : σ) (demand : Demand) :
    ((server.view state).wait demand.now).rateLimit demand.quota.limiter key demand.quantity =
      ((server.serve key state demand).1, server.view (server.serve key state demand).2) := by
  -- A server waits, and then runs the call, as its keyspace does.
  rw [← server.waits]
  exact server.documented.run _ _

end Server

namespace Keyspace

/-- A key holds the text of a value that another store keeps for it, whether or not it expires. -/
def Holds (keyspace : Keyspace) (key : String) (tatVal : Option UInt64) : Prop :=
  (keyspace.entries key).map Entry.content =
    tatVal.map fun value => .text (u64ToString value).toByteArray

/--
A key forgets a debt: when the demand is made its deadline has passed, although its arrival time
lies in the future and the demand could be admitted.
-/
def Forgets (keyspace : Keyspace) (key : String) (demand : Demand) : Prop :=
  ∃ value deadline,
    keyspace.entries key = some ⟨.text (u64ToString value).toByteArray, some deadline⟩ ∧
      deadline ≤ demand.now ∧ demand.now.nanos < value.toNat ∧
      demand.increment ≤ demand.quota.limiter.delayVariationTolerance

/-- A key that holds a value yields it until its deadline, and nothing from then on. -/
theorem Holds.tatVal_cases {keyspace : Keyspace} {key : String} {tatVal : Option UInt64}
    (holds : keyspace.Holds key tatVal) :
    keyspace.tatVal key = some (.ok tatVal) ∨
      ∃ value deadline, tatVal = some value ∧
        keyspace.entries key = some ⟨.text (u64ToString value).toByteArray, some deadline⟩ ∧
        deadline ≤ keyspace.clock ∧ keyspace.tatVal key = some (.ok none) := by
  -- The entry decides: none at all, one that stays, or one whose deadline may have passed.
  unfold Holds at holds
  cases stored : keyspace.entries key with
  | none =>
    rw [stored] at holds
    cases tatVal with
    | none => exact Or.inl (tatVal_of_absent stored)
    | some value => cases holds
  | some entry =>
    rw [stored] at holds
    cases tatVal with
    | none => cases holds
    | some value =>
      obtain ⟨content, expiry⟩ := entry
      simp only [Option.map_some, Option.some.injEq] at holds
      subst holds
      cases expiry with
      | none => exact Or.inl (tatVal_of_live (live_of_lasting stored))
      | some deadline =>
        -- Before its deadline the value is read, and from then on nothing is.
        by_cases early : keyspace.clock < deadline
        · have readable : keyspace.live key =
              some ⟨.text (u64ToString value).toByteArray, some deadline⟩ := by
            simp [live, stored, early]
          exact Or.inl (tatVal_of_live readable)
        · refine Or.inr ⟨value, deadline, rfl, rfl, ?_, ?_⟩
          · rw [OffsetDateTime.le_iff]
            rw [OffsetDateTime.lt_iff] at early
            omega
          · have unread : keyspace.live key = none := by simp [live, stored, early]
            simp [Keyspace.tatVal, unread]

/-- A refused call tells its wait, or that it can never be admitted. -/
theorem decision_blocked (limiter : RateLimiter) (increment : Duration) (tatVal : Option UInt64)
    (now : OffsetDateTime) :
    MemoryStore.Outcome.decision
        (some (.ok (limiter.report (limiter.blocked increment tatVal now)))) =
      some (true, if increment ≤ limiter.delayVariationTolerance
        then -limiter.diff now (RateLimiter.newTat increment tatVal now)
        else Duration.seconds (-1)) := rfl

/-- A granted call has no wait to tell. -/
theorem decision_granted (limiter : RateLimiter) (increment : Duration) (tatVal : Option UInt64)
    (now : OffsetDateTime) :
    MemoryStore.Outcome.decision
        (some (.ok (limiter.report (RateLimiter.granted increment tatVal now)))) =
      some (false, Duration.seconds (-1)) := rfl

/-- The span to a new arrival time that passes is not negative, and fits its word. -/
theorem charge_accepted {demand : Demand} {tatVal : Option UInt64}
    (passes : ¬demand.quota.limiter.Blocks demand.increment tatVal demand.now) :
    chargeAnswer (RateLimiter.newTat demand.increment tatVal demand.now - demand.now) = .ok () := by
  -- What passes is due no later than one tolerance from now.
  have ahead := Gcra.le_due (storedTat tatVal) demand.now.nanos
  have nonneg := mul_nonneg demand.quota.interval_pos.le demand.nonneg
  have tolerance := demand.quota.fits.2
  have reach : demand.quota.interval * demand.quota.limit < 2 ^ 63 := tolerance
  have scheduled := newTat_nanos demand.increment tatVal demand.now
  rw [demand.increment_nanos] at scheduled
  rw [RateLimiter.blocks_iff, PositiveQuota.limiter_tolerance, scheduled] at passes
  -- The new time lies between now and one tolerance past it.
  have span : (RateLimiter.newTat demand.increment tatVal demand.now - demand.now).nanos =
      Gcra.due (storedTat tatVal) demand.now.nanos +
        demand.quota.interval * demand.quantity.toInt - demand.now.nanos := by
    rw [OffsetDateTime.sub_nanos, scheduled]
  have low : 0 ≤ (RateLimiter.newTat demand.increment tatVal demand.now - demand.now).nanos := by
    rw [span]
    simp only [PositiveQuota.interval] at nonneg ⊢
    omega
  have spanFits : FitsI64
      (RateLimiter.newTat demand.increment tatVal demand.now - demand.now).nanos := by
    refine ⟨by omega, ?_⟩
    rw [span]
    omega
  have whole := Int.tdiv_nonneg low (by omega : (0 : Int) ≤ 1000000)
  rw [chargeAnswer, if_pos]
  rw [expireMillis_toInt spanFits]
  omega

/-- Two stores that schedule a call alike decide it alike and go on holding the same value. -/
theorem serve_agrees {keyspace : Keyspace} {store : MemoryStore} {key : String}
    {demand : Demand} {tatVal : Option UInt64}
    (holds : keyspace.Holds key (store.map key))
    (reads : (keyspace.wait demand.now).tatVal key = some (.ok tatVal))
    (same : RateLimiter.newTat demand.increment tatVal demand.now =
      RateLimiter.newTat demand.increment (store.map key) demand.now) :
    let served := (keyspace.wait demand.now).rateLimit demand.quota.limiter key demand.quantity
    served.1.decision = (store.answer key demand).1.decision ∧
      served.2.Holds key ((store.answer key demand).2.map key) := by
  -- The decision depends on the value that is read, and both read the same.
  intro served
  have nonzero := demand.quota.limiter_nonzero
  by_cases blocks : demand.quota.limiter.Blocks demand.increment tatVal demand.now
  · -- Both refuse, and neither changes its value.
    have blocks' : demand.quota.limiter.Blocks demand.increment (store.map key) demand.now := by
      unfold RateLimiter.Blocks at blocks ⊢
      rwa [← same]
    have redis : served = _ := rateLimit_blocked nonzero reads blocks
    have memory : store.answer key demand = _ := MemoryStore.rateLimit_blocked nonzero blocks'
    rw [redis, memory]
    refine ⟨?_, holds⟩
    have wait := decision_blocked demand.quota.limiter demand.increment
    rw [← Demand.increment, wait, wait, wait_clock, same]
  · -- Both admit, and both store the same new arrival time.
    have passes' : ¬demand.quota.limiter.Blocks demand.increment (store.map key) demand.now := by
      unfold RateLimiter.Blocks at blocks ⊢
      rwa [← same]
    have redis : served = _ := rateLimit_passed nonzero reads blocks
    have memory : store.answer key demand = _ := MemoryStore.rateLimit_granted nonzero passes'
    rw [redis, memory]
    constructor
    · show MemoryStore.Outcome.decision (some ((chargeAnswer (RateLimiter.newTat demand.increment
        tatVal demand.now - demand.now)).map _)) = _
      rw [charge_accepted blocks]
      exact (decision_granted _ _ _ _).trans (decision_granted _ _ _ _).symm
    · rw [MemoryStore.insert_self, Holds, put_entries_self, ← Demand.increment, ← same]
      rfl

/-- A demand beyond the tolerance is refused whatever its key holds. -/
theorem blocks_beyond {demand : Demand} (tatVal : Option UInt64)
    (beyond : ¬demand.increment ≤ demand.quota.limiter.delayVariationTolerance) :
    demand.quota.limiter.Blocks demand.increment tatVal demand.now := by
  -- The end of the request lies past now by its own increment at least.
  rw [RateLimiter.blocks_iff, newTat_nanos]
  rw [Duration.le_iff] at beyond
  have ahead := Gcra.le_due (storedTat tatVal) demand.now.nanos
  omega

/-- A value that lies in the past schedules a call as no value does. -/
theorem newTat_past {increment : Duration} {value : UInt64} {now : OffsetDateTime}
    (past : (value.toNat : Int) ≤ now.nanos) :
    RateLimiter.newTat increment none now = RateLimiter.newTat increment (some value) now := by
  -- The later of now and a past value is now.
  ext
  rw [newTat_nanos, newTat_nanos]
  simp [storedTat, past]

/-- Unless a key forgets a debt, its call is decided as it would be without expiry. -/
theorem serve_keeps {keyspace : Keyspace} {store : MemoryStore} {key : String}
    {demand : Demand} (holds : keyspace.Holds key (store.map key))
    (kept : ¬keyspace.Forgets key demand) :
    let served := (keyspace.wait demand.now).rateLimit demand.quota.limiter key demand.quantity
    served.1.decision = (store.answer key demand).1.decision ∧
      served.2.Holds key ((store.answer key demand).2.map key) := by
  -- The key is read, or it has just expired.
  intro served
  have waited : (keyspace.wait demand.now).Holds key (store.map key) := holds
  rcases waited.tatVal_cases with reads | ⟨value, deadline, present, stored, expired, unread⟩
  · exact serve_agrees holds reads rfl
  · by_cases past : (value.toNat : Int) ≤ demand.now.nanos
    · -- A value that has been paid off is as good as no value.
      refine serve_agrees holds unread ?_
      rw [present]
      exact newTat_past past
    · -- A debt is still open, so the demand must be one that can never be admitted.
      have beyond : ¬demand.increment ≤ demand.quota.limiter.delayVariationTolerance :=
        fun within => kept ⟨value, deadline, stored, expired, by omega, within⟩
      have nonzero := demand.quota.limiter_nonzero
      have redis : served = _ := rateLimit_blocked nonzero unread (blocks_beyond none beyond)
      have memory : store.answer key demand = _ :=
        MemoryStore.rateLimit_blocked nonzero (blocks_beyond (store.map key) beyond)
      rw [redis, memory]
      refine ⟨?_, holds⟩
      rw [← Demand.increment, decision_blocked, decision_blocked, if_neg beyond, if_neg beyond]

end Keyspace

namespace Server

variable {σ : Type}

/-- No call of a run finds its debt forgotten. -/
def KeepsDebts (server : Server σ) (key : String) : σ → List Demand → Prop
  | _, [] => True
  | state, demand :: rest =>
    ¬(server.view state).Forgets key demand ∧
      KeepsDebts server key (server.serve key state demand).2 rest

/-- A run decides as it would without expiry, from any value both stores hold. -/
theorem outcomes_keep (server : Server σ) {key : String} {state : σ} {store : MemoryStore}
    {demands : List Demand} (holds : (server.view state).Holds key (store.map key))
    (kept : server.KeepsDebts key state demands) :
    (server.outcomes key state demands).map MemoryStore.Outcome.decision =
      (store.outcomes key demands).map MemoryStore.Outcome.decision := by
  -- Each call finds the same value in both stores, unless it has expired without a debt.
  induction demands generalizing state store with
  | nil => rfl
  | cons demand rest ih =>
    obtain ⟨decided, still⟩ := serve_keeps holds kept.1
    rw [server.serve_view key state demand] at decided still
    simp only [outcomes, MemoryStore.outcomes, List.map_cons]
    rw [ih still kept.2, decided]

/--
While no debt is forgotten, a key that expires decides every call as a key that never does: the
same calls are limited, and every wait is the same.
-/
theorem expiring_decides (server : Server σ) (key : String) (state : σ)
    (absent : (server.view state).entries key = none) (demands : List Demand)
    (kept : server.KeepsDebts key state demands) :
    (server.outcomes key state demands).map MemoryStore.Outcome.decision =
      (MemoryStore.new.outcomes key demands).map MemoryStore.Outcome.decision := by
  -- Both stores begin without a value.
  apply server.outcomes_keep _ kept
  rw [Holds, absent]
  rfl

end Server

/-- Two documented calls are decided as on a store that keeps its keys. -/
theorem Server.expiring_decides_readme :
    (Server.keyspace.outcomes "user123" Keyspace.empty [readmeDemand 5, readmeDemand 7]).map
        MemoryStore.Outcome.decision =
      (MemoryStore.new.outcomes "user123" [readmeDemand 5, readmeDemand 7]).map
        MemoryStore.Outcome.decision := by
  -- At each call the key has no debt that it could forget.
  apply Server.expiring_decides Server.keyspace "user123" Keyspace.empty rfl
  refine ⟨?_, ?_, trivial⟩
  · intro holds
    obtain ⟨_, _, stored, _⟩ := holds
    cases stored
  · -- The first call expires its key four seconds after the second one is made.
    intro holds
    obtain ⟨_, deadline, stored, expired, _⟩ := holds
    let served := (Server.keyspace.serve "user123" Keyspace.empty (readmeDemand 5)).2
    have charged : (served.entries "user123").bind Entry.expiry = some ⟨11000000000⟩ := by decide
    rw [show served.entries "user123" = some ⟨_, some deadline⟩ from stored] at charged
    cases charged
    exact absurd expired (by decide)

/-- An interval of half a millisecond expires at once, and a second call is let through. -/
theorem Server.expired_debt_admits :
    let limiter := RateLimiter.new ⟨0, Rate.perPeriod 2000 (Duration.seconds 1)⟩
    let first := Keyspace.empty.rateLimit limiter "user123" 1
    let second := (first.2.wait ⟨100000⟩).rateLimit limiter "user123" 1
    let kept := MemoryStore.new.rateLimit limiter "user123" 1 ⟨0⟩
    let refused := kept.2.rateLimit limiter "user123" 1 ⟨100000⟩
    [first.1.limited, second.1.limited] = [some false, some false] ∧
      [kept.1.limited, refused.1.limited] = [some false, some true] := by
  -- Half a millisecond is no whole millisecond, so the key is gone at once.
  decide

end RedisCell
