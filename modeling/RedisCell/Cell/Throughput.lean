import RedisCell.Cell.Window
import RedisCell.Gcra.Saturated

/-! What a run lets through: never fewer calls than it could, and the whole rate when it is asked for. -/

namespace RedisCell

open MemoryStore Gcra

namespace MemoryStore

variable {store : MemoryStore} {key : String} {requests chosen : List Request}

/-- The calls of a steady clock are steady arrivals. -/
theorem arrivals_ordered
    (ordered : requests.Pairwise fun earlier later => earlier.now.nanos ≤ later.now.nanos) :
    ((requests.map Request.arrival).map Arrival.now).Pairwise (· ≤ ·) := by
  -- An arrival is made at the clock of its request.
  rw [List.map_map, List.pairwise_map]
  exact ordered

/-- A run admits as many calls as its schedule does arrivals. -/
theorem admittedCalls_length (store : MemoryStore) (key : String) (requests : List Request) :
    (admittedCalls (trace key store requests)).length =
      (admitted (store.tat key) (requests.map Request.arrival)).length := by
  rw [← trace_admitted, List.length_map]

/-- A run that refuses no call admits all of them. -/
theorem admittedCalls_of_all (all : ∀ event ∈ trace key store requests, event.2.admitted = true) :
    admittedCalls (trace key store requests) = requests := by
  rw [admittedCalls, List.filter_eq_self.mpr all, trace_requests]

/--
No call is refused in vain: among calls of one cost, no others that would all have been admitted by
themselves are more than those that the run admits.
-/
theorem admits_most (store : MemoryStore) (key : String) (cost : Int)
    (ordered : requests.Pairwise fun earlier later => earlier.now.nanos ≤ later.now.nanos)
    (uniform : ∀ request ∈ requests, request.quota.interval * request.quantity.toInt = cost)
    (among : chosen.Sublist requests)
    (all : ∀ event ∈ trace key store chosen, event.2.admitted = true) :
    chosen.length ≤ (admittedCalls (trace key store requests)).length := by
  -- The chosen calls are arrivals that the schedule admits whole.
  have scheduled := trace_admitted store key chosen
  rw [admittedCalls_of_all all] at scheduled
  have costs : ∀ arrival ∈ requests.map Request.arrival, arrival.cost = cost := by
    intro arrival member
    obtain ⟨request, asked, rfl⟩ := List.mem_map.mp member
    exact uniform request asked
  have most := length_le_admitted (among.map Request.arrival) (arrivals_ordered ordered) costs
    (allConform_of_admitted scheduled.symm)
  rw [admittedCalls_length, ← List.length_map Request.arrival]
  exact most

/-- Of two documented calls, at least as many are admitted as of the second alone. -/
theorem admits_most_readme :
    [readmeRequest 7].length ≤ (admittedCalls
      (trace "user123" MemoryStore.new [readmeRequest 5, readmeRequest 7])).length := by
  have cost : readmeQuota.interval * (3 : Int64).toInt = 6000000000 := by decide
  -- Two calls of 6 s each fit a tolerance of 32 s.
  refine admits_most MemoryStore.new "user123" 6000000000 (by decide) ?_
    (List.sublist_cons_self _ _) (by decide)
  exact List.forall_mem_cons.mpr ⟨cost, List.forall_mem_singleton.mpr cost⟩

end MemoryStore

namespace PositiveQuota

/-- Single tokens of the quota, as the schedule sees them. -/
def even (quota : PositiveQuota) : Even where
  interval := quota.interval
  burst := quota.limit.toNat
  positive := quota.interval_pos
  some_ := by
    have limited := quota.limit_pos
    show 1 ≤ (quota.quota.maxBurst.toInt + 1).toNat
    omega

/-- A call for a single token is a request of this kind. -/
theorem even_admits {quota : PositiveQuota} {request : Request} (same : request.quota = quota)
    (single : request.quantity = 1) : quota.even.Admits request.arrival := by
  have limited : 0 ≤ quota.limit := le_trans (by omega) quota.limit_pos
  have one : (1 : Int64).toInt = 1 := rfl
  -- One token costs one interval, and the tolerance is the limit of them.
  refine ⟨?_, ?_⟩
  · simp only [Request.arrival, same, single, one, mul_one]
    rfl
  · simp only [Request.arrival, same, even, Int.toNat_of_nonneg limited]
    exact mul_comm _ _

end PositiveQuota

/--
The rate is delivered in full: a run of single tokens that asks for the whole burst at the start and
for one token in each interval, and perhaps for more in between, is granted exactly the burst and one
token for each interval, which no run could exceed.
-/
theorem PositiveQuota.delivers (quota : PositiveQuota) (store : MemoryStore) (key : String)
    {requests : List Request} (start : Int) (steps : Nat)
    (single : ∀ request ∈ requests, request.quota = quota ∧ request.quantity = 1)
    (ordered : requests.Pairwise fun earlier later => earlier.now.nanos ≤ later.now.nanos)
    (within : ∀ request ∈ requests, start ≤ request.now.nanos ∧
      request.now.nanos < start + (steps + 1 : Nat) * quota.interval)
    (idle : ∀ tat, store.tat key = some tat → tat ≤ start)
    (asks : (quota.even.saturating start steps).Sublist
      (requests.map fun request => request.now.nanos)) :
    (admittedCalls (trace key store requests)).length = quota.limit.toNat + steps := by
  -- An idle key schedules a call at its own time.
  have fresh : due (store.tat key) start = start := by
    cases stored : store.tat key with
    | none => rfl
    | some tat => exact max_eq_left (idle tat stored)
  -- Each request is an even arrival within the span.
  have arrives : ∀ arrival ∈ requests.map Request.arrival, quota.even.Admits arrival ∧
      start ≤ arrival.now ∧ arrival.now < start + (steps + 1 : Nat) * quota.even.interval := by
    intro arrival member
    obtain ⟨request, asked, rfl⟩ := List.mem_map.mp member
    exact ⟨even_admits (single request asked).1 (single request asked).2, within request asked⟩
  -- The rest is the throughput of the schedule.
  rw [admittedCalls_length]
  refine Even.length_admitted (fun arrival member => (arrives arrival member).1)
    (arrivals_ordered ordered) (fun arrival member => (arrives arrival member).2) fresh ?_
  rw [List.map_map]
  exact asks

/-- One token every two seconds. -/
def tokenQuota : PositiveQuota :=
  ⟨⟨0, Rate.perPeriod 1 (Duration.seconds 2)⟩, by decide, by decide, by decide⟩

/-- A call for such a token, when the clock shows these seconds. -/
def tokenRequest (seconds : Fin 1000) : Request where
  quota := tokenQuota
  quantity := 1
  nonneg := by decide
  fits := by decide
  now := ⟨1000000000 * seconds⟩
  afterEpoch := by simp
  reaches := by
    have bounded := seconds.isLt
    have tolerance : tokenQuota.interval * tokenQuota.limit = 2000000000 := by decide
    simp only [tolerance]
    omega

/-- The call between the two that the rate allows is the only one that is refused. -/
theorem PositiveQuota.delivers_readme :
    (admittedCalls (trace "user123" MemoryStore.new
      [tokenRequest 0, tokenRequest 1, tokenRequest 2])).length = 2 := by
  -- A burst of one at the start and one call a second later are asked for.
  apply PositiveQuota.delivers tokenQuota MemoryStore.new "user123" 0 1
  · simp [tokenRequest]
  · decide
  · decide
  · -- The key is absent, so it has no time.
    intro tat stored
    cases stored
  · decide

end RedisCell
