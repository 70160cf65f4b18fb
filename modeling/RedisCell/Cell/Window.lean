import RedisCell.Cell.Run
import RedisCell.Gcra.Readings

/-! What a run admits in any stretch of time, whatever the clock and the key did before. -/

namespace RedisCell

open MemoryStore Gcra

/-- The quantity a segment of a run was granted in total. -/
def admittedQuantity (segment : List (Request × Outcome)) : Int :=
  ((admittedCalls segment).map fun request => request.quantity.toInt).sum

/-- Under one quota, the time admitted calls add to the schedule is their quantity in intervals. -/
theorem total_arrivals {quota : PositiveQuota} {requests : List Request}
    (sameQuota : ∀ request ∈ requests, request.quota = quota) :
    total (requests.map Request.arrival) =
      quota.interval * (requests.map fun request => request.quantity.toInt).sum := by
  -- Every cost is the one interval times its quantity.
  induction requests with
  | nil => simp
  | cons request rest ih =>
    have head := sameQuota request (by simp)
    have tail := ih (fun other member => sameQuota other (by simp [member]))
    simp only [List.map_cons, total_cons, List.sum_cons, tail]
    rw [mul_add, ← head]
    rfl

/-- The admitted calls of a trace are calls of its run. -/
theorem mem_of_mem_admittedCalls {store : MemoryStore} {key : String} {requests : List Request}
    {request : Request} (member : request ∈ admittedCalls (trace key store requests)) :
    request ∈ requests := by
  -- The trace keeps every call in its place, and the filter only removes some.
  induction requests generalizing store with
  | nil => simp [trace, admittedCalls] at member
  | cons head rest ih =>
    simp only [admittedCalls, trace, List.filter_cons] at member
    split at member
    · rcases List.mem_cons.mp member with same | member
      · simp [same]
      · exact List.mem_cons_of_mem _ (ih member)
    · exact List.mem_cons_of_mem _ (ih member)

/-- What a run admits is paid for by the tolerance and by the time its admitted calls span. -/
theorem admittedQuantity_le_spread {quota : PositiveQuota} {requests : List Request}
    (sameQuota : ∀ request ∈ requests, request.quota = quota) (key : String)
    (store : MemoryStore) :
    quota.interval * admittedQuantity (trace key store requests) ≤
      quota.interval * quota.limit +
        spread ((admittedCalls (trace key store requests)).map fun request =>
          request.now.nanos) := by
  -- The bound is that of the schedule, whose arrivals are the admitted calls.
  have scheduled := trace_admitted store key requests
  have admittedQuota : ∀ request ∈ admittedCalls (trace key store requests),
      request.quota = quota := fun request member =>
    sameQuota request (mem_of_mem_admittedCalls member)
  have charged := total_arrivals admittedQuota
  rw [scheduled] at charged
  rw [admittedQuantity, ← charged]
  by_cases nothing : admittedCalls (trace key store requests) = []
  · -- A run that admits nothing costs nothing and spans nothing.
    rw [nothing] at scheduled ⊢
    rw [← scheduled]
    have tolerance : 0 ≤ quota.interval * quota.limit :=
      mul_nonneg quota.interval_pos.le (zero_le_one.trans quota.limit_pos)
    simpa only [spread, List.map_nil, List.max?_nil, List.min?_nil, Option.getD_none,
      total_nil, sub_self, add_zero] using tolerance
  · have some_ : admitted (store.tat key) (requests.map Request.arrival) ≠ [] := by
      rw [← scheduled]
      simpa using nothing
    have bound := window_bound some_
    simp only [← scheduled, List.getLast_map, List.head_map] at bound ⊢
    -- The first and the last admitted call are two of the readings the spread ranges over.
    have last := List.getLast_mem nothing
    have first := List.head_mem nothing
    have span : ((admittedCalls (trace key store requests)).getLast nothing).now.nanos -
        ((admittedCalls (trace key store requests)).head nothing).now.nanos ≤
          spread ((admittedCalls (trace key store requests)).map fun request =>
            request.now.nanos) :=
      sub_le_spread (List.mem_map_of_mem last) (List.mem_map_of_mem first)
    have tolerance : ((admittedCalls (trace key store requests)).getLast nothing).arrival.tolerance =
        quota.interval * quota.limit := by
      rw [← admittedQuota _ last]
      rfl
    rw [tolerance] at bound
    exact bound.trans (add_le_add_right span _)

/--
Window bound: what a segment of a run admits is paid for by the tolerance and by the time it spans.

The key may start with any value, and the clock may stand still or go backwards.
-/
theorem admittedQuantity_le_window (quota : PositiveQuota) (key : String) (store : MemoryStore)
    (requests : List Request) (sameQuota : ∀ request ∈ requests, request.quota = quota)
    (segment : List (Request × Outcome)) (contiguous : segment <:+: trace key store requests) :
    quota.interval * admittedQuantity segment ≤
      quota.interval * quota.limit +
        spread ((admittedCalls segment).map fun request => request.now.nanos) := by
  -- The segment is a run of its own from the store it starts at.
  obtain ⟨start, middle, inside, rfl⟩ := segment_is_trace contiguous
  exact admittedQuantity_le_spread (fun request member => sameQuota request (inside.subset member))
    key start

/-- The bound holds of two documented calls whose clock goes back. -/
theorem admittedQuantity_le_window_readme :
    readmeQuota.interval *
        admittedQuantity (trace "user123" MemoryStore.new [readmeRequest 7, readmeRequest 5]) ≤
      readmeQuota.interval * readmeQuota.limit +
        spread ((admittedCalls (trace "user123" MemoryStore.new
          [readmeRequest 7, readmeRequest 5])).map fun request => request.now.nanos) :=
  -- The whole run is a segment of itself.
  admittedQuantity_le_window readmeQuota "user123" MemoryStore.new
    [readmeRequest 7, readmeRequest 5] (by simp [readmeRequest, readmeDemand]) _ (List.infix_refl _)

end RedisCell
