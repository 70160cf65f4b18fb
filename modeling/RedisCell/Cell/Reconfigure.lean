import RedisCell.Cell.Expiry

/-! A key whose quota changes from call to call: how far its debt can reach. -/

namespace RedisCell

open MemoryStore Gcra

/-- The latest instant that an admitted call may leave its key at. -/
def Request.horizon (request : Request) : Int :=
  request.now.nanos + request.quota.interval * request.quota.limit

/-- The latest horizon of the admitted calls of a run, if there are any. -/
def latestHorizon (events : List (Request × Outcome)) : Option Int :=
  ((admittedCalls events).map Request.horizon).max?

/-- An admitted call bounds the latest horizon from below. -/
theorem horizon_le_latest {events : List (Request × Outcome)} {request : Request}
    (member : request ∈ admittedCalls events) :
    ∃ latest, latestHorizon events = some latest ∧ request.horizon ≤ latest := by
  -- The latest horizon is the greatest one.
  have inside := List.mem_map_of_mem (f := Request.horizon) member
  obtain ⟨latest, found⟩ := Option.isSome_iff_exists.mp (List.isSome_max?_of_mem inside)
  exact ⟨latest, found, (List.max?_eq_some_iff.mp found).2 _ inside⟩

/-- The time a run leaves on an absent key lies within the latest horizon of its admitted calls. -/
theorem tat_le_latestHorizon {store : MemoryStore} {key : String} (absent : store.map key = none)
    {requests : List Request} {tat : Int}
    (stored : (store.afterCalls key requests).tat key = some tat) :
    ∃ latest, latestHorizon (trace key store requests) = some latest ∧ tat ≤ latest := by
  -- On an absent key the run is a schedule that starts from nothing.
  have fresh : store.tat key = none := by simp [MemoryStore.tat, storedTat, absent]
  have scheduled := trace_admitted store key requests
  rw [afterCalls_tat, fresh] at stored
  rw [fresh] at scheduled
  by_cases nothing : admittedCalls (trace key store requests) = []
  · -- A run that admits nothing leaves nothing.
    rw [nothing] at scheduled
    rw [after_of_admitted_nil scheduled.symm] at stored
    cases stored
  · -- The last admitted call has left the key, and its own horizon bounds what it left.
    have some_ : admitted none (requests.map Request.arrival) ≠ [] := by
      rw [← scheduled]
      simpa using nothing
    obtain ⟨finish, reached, bounded⟩ := after_le_last some_
    rw [stored, Option.some.injEq] at reached
    subst reached
    simp only [← scheduled, List.getLast_map] at bounded
    obtain ⟨latest, found, least⟩ := horizon_le_latest (List.getLast_mem nothing)
    exact ⟨latest, found, bounded.trans least⟩

/-- A run never lowers the time that is stored for its key. -/
theorem afterCalls_tat_le (store : MemoryStore) (key : String) (requests : List Request) {tat : Int}
    (stored : store.tat key = some tat) :
    ∃ next, (store.afterCalls key requests).tat key = some next ∧ tat ≤ next := by
  -- Each call leaves the time or moves it forward, and the rest of the run starts from there.
  induction requests generalizing store tat with
  | nil => exact ⟨tat, stored, le_rfl⟩
  | cons request rest ih =>
    obtain ⟨moved, kept, first⟩ := le_advance tat request.arrival
    have served : (store.serve key request).2.tat key = some moved := by
      rw [serve_advances, stored, kept]
    obtain ⟨next, reached, later⟩ := ih _ served
    exact ⟨next, reached, first.trans later⟩

/-- A demand within its limit is admitted once the time stored for its key has passed. -/
theorem answer_admitted {store : MemoryStore} {key : String} {demand : Demand}
    (past : ∀ tat, store.tat key = some tat → tat ≤ demand.now.nanos)
    (within : demand.quantity.toInt ≤ demand.quota.limit) :
    (store.answer key demand).1.limited = some false := by
  -- The limit in intervals is just the tolerance.
  have cost : demand.arrival.cost ≤ demand.arrival.tolerance :=
    mul_le_mul_of_nonneg_left within demand.quota.interval_pos.le
  have conforms : Conforms (store.tat key) demand.arrival := conforms_of_past past cost
  rw [answer_limited, decide_eq_true conforms]
  rfl

/--
Changing quotas cannot lock a key out: a stored time never decreases, it lies within the latest
horizon of the calls admitted so far, and from then on every quota admits its whole limit.
-/
theorem reconfigured_key_recovers (store : MemoryStore) (key : String)
    (absent : store.map key = none) (requests : List Request) :
    (∀ later tat, (store.afterCalls key requests).tat key = some tat →
        ∃ next, (store.afterCalls key (requests ++ later)).tat key = some next ∧ tat ≤ next) ∧
      (∀ tat, (store.afterCalls key requests).tat key = some tat →
        ∃ latest, latestHorizon (trace key store requests) = some latest ∧ tat ≤ latest) ∧
      ∀ demand : Demand,
        (∀ latest, latestHorizon (trace key store requests) = some latest →
          latest ≤ demand.now.nanos) →
        demand.quantity.toInt ≤ demand.quota.limit →
        ((store.afterCalls key requests).answer key demand).1.limited = some false := by
  -- The bound on the stored time is what a later request has to wait for.
  refine ⟨?_, fun tat stored => tat_le_latestHorizon absent stored, ?_⟩
  · intro later tat stored
    rw [afterCalls, List.foldl_append]
    exact afterCalls_tat_le _ key later stored
  · intro demand past within
    refine answer_admitted (fun tat stored => ?_) within
    obtain ⟨latest, found, bounded⟩ := tat_le_latestHorizon absent stored
    exact bounded.trans (past latest found)

/-- A key that is run ahead at seven seconds admits everything again at thirty-nine. -/
theorem reconfigured_key_recovers_readme :
    let calls := [readmeRequest 7, readmeRequest 5]
    let left := MemoryStore.new.afterCalls "user123" calls
    left.tat "user123" = some 19000000000 ∧
      (∃ next, (MemoryStore.new.afterCalls "user123" (calls ++ [readmeRequest 8])).tat "user123" =
        some next ∧ 19000000000 ≤ next) ∧
      (∃ latest, latestHorizon (trace "user123" MemoryStore.new calls) = some latest ∧
        19000000000 ≤ latest) ∧
      (left.answer "user123" (readmeDemand 39)).1.limited = some false := by
  -- The three parts of the theorem are read off at these instants.
  intro calls left
  obtain ⟨grows, bounded, recovers⟩ :=
    reconfigured_key_recovers MemoryStore.new "user123" rfl calls
  have stored : left.tat "user123" = some 19000000000 := by decide
  refine ⟨stored, grows [readmeRequest 8] _ stored, bounded _ stored, ?_⟩
  -- The call at seven seconds may run the key sixteen intervals ahead.
  have horizon : latestHorizon (trace "user123" MemoryStore.new calls) = some 39000000000 := by
    decide
  apply recovers (readmeDemand 39)
  · intro latest found
    rw [horizon, Option.some.injEq] at found
    rw [← found]
    decide
  · decide

end RedisCell
