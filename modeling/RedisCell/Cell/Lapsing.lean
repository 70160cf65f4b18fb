import RedisCell.Cell.Expiry
import RedisCell.Cell.Window
import RedisCell.Gcra.Lapse

/-! What an expiry in whole milliseconds costs a limit, over runs at a server. -/

namespace RedisCell

open Interaction MemoryStore Gcra

/-- The part of a debt that whole milliseconds may cut off, in nanoseconds. -/
def expirySlack : Int := 999999

/-- A call that passes moves its key to an instant whose distance from now fits its word. -/
theorem Demand.span_fits {demand : Demand} {tatVal : Option UInt64}
    (conforms : Conforms (storedTat tatVal) demand.arrival) :
    FitsI64 (RateLimiter.newTat demand.increment tatVal demand.now - demand.now).nanos := by
  -- The new time lies between now and one tolerance past now.
  have ahead := le_due (storedTat tatVal) demand.now.nanos
  have nonneg := demand.arrival.nonneg
  have tolerance := demand.quota.fits.2
  rw [OffsetDateTime.sub_nanos, newTat_nanos, demand.increment_nanos]
  simp only [Conforms, Demand.arrival, PositiveQuota.interval, PositiveQuota.limit] at *
  constructor <;> omega

namespace Keyspace

/--
A key owes an arrival time: it holds the value, and expires no earlier than a millisecond before the
debt is paid off.
-/
structure Owes (keyspace : Keyspace) (key : String) (tatVal : Option UInt64) : Prop where
  holds : keyspace.Holds key tatVal
  timely : ∀ value deadline,
    keyspace.entries key = some ⟨.text (u64ToString value).toByteArray, some deadline⟩ →
      (value.toNat : Int) ≤ deadline.nanos + expirySlack

variable {keyspace : Keyspace} {key : String} {tatVal found : Option UInt64} {request : Request}

/-- What a call finds of a debt: all of it, or nothing once less than a millisecond is left. -/
theorem Owes.finds (owes : keyspace.Owes key tatVal) (request : Request) :
    ∃ found, (keyspace.wait request.now).tatVal key = some (.ok found) ∧
      Sighting.Of expirySlack (storedTat tatVal) ⟨storedTat found, request.arrival⟩ := by
  -- The key is read with all that it owes, or has just expired.
  have waited : (keyspace.wait request.now).Holds key tatVal := owes.holds
  rcases waited.tatVal_cases with reads | ⟨value, deadline, rfl, stored, expired, unread⟩
  · exact ⟨tatVal, reads, Or.inl rfl⟩
  · -- The deadline has passed, and with it all but the slack of the debt.
    refine ⟨none, unread, Or.inr ⟨rfl, ?_⟩⟩
    intro ahead same
    cases same
    have near := owes.timely value deadline stored
    have passed : deadline.nanos ≤ request.now.nanos := expired
    show (value.toNat : Int) ≤ request.now.nanos + expirySlack
    omega

/-- A charge that conforms leaves a key that owes its new arrival time. -/
theorem owes_charged (conforms : Conforms (storedTat found) request.arrival) :
    let new := RateLimiter.newTat request.increment found request.now
    ((keyspace.wait request.now).put key
        ((keyspace.wait request.now).charged (nanoseconds new) (new - request.now))).Owes key
      (some (nanoseconds new)) := by
  -- The entry is the one charged, so its value and its deadline are those of the charge.
  intro new
  refine ⟨by rw [Holds, put_entries_self]; rfl, ?_⟩
  intro value expires stored
  rw [put_entries_self, charged, Option.some.injEq, Entry.mk.injEq, Content.text.injEq] at stored
  obtain ⟨sameText, sameDeadline⟩ := stored
  have encoded := newTat_encodes request conforms
  rw [value_of_text sameText, storedTat, Option.map_some, Option.some.injEq] at encoded
  -- The deadline is now and the whole milliseconds of the span, which drop less than one.
  have ahead := le_due (storedTat found) request.now.nanos
  have nonneg := request.arrival.nonneg
  have span : (new - request.now).nanos =
      due (storedTat found) request.now.nanos + request.arrival.cost - request.now.nanos := by
    rw [OffsetDateTime.sub_nanos, newTat_nanos, request.increment_nanos]
    rfl
  have millis : (expireMillis (new - request.now)).toInt = (new - request.now).nanos.tdiv 1000000 :=
    expireMillis_toInt (Demand.span_fits conforms)
  have rounded := tdiv_cases (new - request.now).nanos 1000000
  rw [deadline, millis] at sameDeadline
  split at sameDeadline
  · cases sameDeadline
    rw [wait_clock, OffsetDateTime.add_nanos, encoded]
    simp only [Duration.new, expirySlack, Request.arrival] at *
    omega
  · cases sameDeadline

/-- A call decides by what it finds, and what it leaves is owed. -/
theorem Owes.serve (owes : keyspace.Owes key tatVal) (request : Request) :
    let served := (keyspace.wait request.now).rateLimit request.quota.limiter key request.quantity
    ∃ sighting : Sighting Int, sighting.arrival = request.arrival ∧
      sighting.Of expirySlack (storedTat tatVal) ∧
      Outcome.admitted served.1 = decide sighting.Admitted ∧
      ∃ left, served.2.Owes key left ∧ storedTat left = sighting.leaves (storedTat tatVal) := by
  -- The call is served by what it finds, whether or not the key has lapsed.
  intro served
  obtain ⟨found, reads, sights⟩ := owes.finds request
  have nonzero := request.quota.limiter_nonzero
  have decides := request.toDemand.blocks_iff_not_conforms found
  let sighting : Sighting Int := ⟨storedTat found, request.arrival⟩
  refine ⟨sighting, rfl, sights, ?_⟩
  by_cases conforms : sighting.Admitted
  · -- The charge is accepted, and leaves the end of the request.
    have passes := mt decides.mp (not_not.mpr conforms)
    have granted : served = _ := rateLimit_passed nonzero reads passes
    rw [granted, Sighting.leaves_admitted conforms, decide_eq_true conforms]
    refine ⟨?_, _, owes_charged conforms, newTat_encodes request conforms⟩
    show Outcome.admitted (some ((chargeAnswer (RateLimiter.newTat request.increment found
      request.now - request.now)).map _)) = true
    rw [charge_accepted passes]
    rfl
  · -- A refusal leaves the key and its debt alone.
    have refused : served = _ := rateLimit_blocked nonzero reads (decides.mpr conforms)
    rw [refused, Sighting.leaves_refused conforms, decide_eq_false conforms]
    exact ⟨rfl, tatVal, ⟨owes.holds, owes.timely⟩, rfl⟩

end Keyspace

namespace Server

variable {σ : Type}

/-- The calls of a run on a key of the server with their outcomes, in order. -/
def trace (server : Server σ) (key : String) : σ → List Request → List (Request × Outcome)
  | _, [] => []
  | state, request :: rest =>
    (request, (server.serve key state request.toDemand).1) ::
      trace server key (server.serve key state request.toDemand).2 rest

/-- The state of the server after a run of calls. -/
def afterCalls (server : Server σ) (key : String) (state : σ) (requests : List Request) : σ :=
  requests.foldl (fun state request => (server.serve key state request.toDemand).2) state

end Server

end RedisCell
