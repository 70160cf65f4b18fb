import RedisCell.Cell.Run

/-! Calls with a steady clock refine a bucket that refills one unit each nanosecond. -/

namespace RedisCell

open MemoryStore Gcra

/-- The lead of the stored arrival time over an instant, which a missing key does not have. -/
def storedLead (store : MemoryStore) (key : String) (now : OffsetDateTime) : Int :=
  (store.tat key).elim 0 fun tat => max 0 (tat - now.nanos)

/-- The lead is what scheduling a request would add to its own instant. -/
theorem storedLead_eq (store : MemoryStore) (key : String) (now : OffsetDateTime) :
    storedLead store key now = due (store.tat key) now.nanos - now.nanos := by
  -- A missing key has no lead, and a present one leads by what exceeds now.
  unfold storedLead
  cases store.tat key with
  | none => simp
  | some tat =>
    simp only [Option.elim_some, due_some]
    omega

/-- Requests of one quota have its tolerance. -/
theorem arrival_tolerance {quota : PositiveQuota} {requests : List Request}
    (sameQuota : ∀ request ∈ requests, request.quota = quota) :
    ∀ arrival ∈ requests.map Request.arrival,
      arrival.tolerance = quota.interval * quota.limit := by
  -- Every call of the run has the tolerance of its one quota.
  intro arrival member
  obtain ⟨request, inside, rfl⟩ := List.mem_map.mp member
  rw [← sameQuota request inside]
  rfl

/-- The last request offered to a bucket dates it. -/
theorem offers_asOf {capacity : Int} (bucket : TokenBucket capacity)
    (arrivals : List (Arrival Int)) (last : Arrival Int) :
    (bucket.offers (arrivals ++ [last])).2.asOf = last.now := by
  -- A bucket is dated at the last offer it was made.
  induction arrivals generalizing bucket with
  | nil =>
    simp only [List.nil_append, TokenBucket.offers, TokenBucket.offer]
    split <;> rfl
  | cons arrival rest ih => exact ih _

/--
The limiter refines a token bucket: every decision agrees, and after every call the bucket's level is
the tolerance less the lead of the stored arrival time.

The bucket starts full at any instant that no call precedes.
-/
theorem refines_token_bucket (quota : PositiveQuota) (key : String) (store : MemoryStore)
    (absent : store.map key = none) (requests : List Request)
    (sameQuota : ∀ request ∈ requests, request.quota = quota) (start : Int)
    (ordered : (start :: requests.map fun request => request.now.nanos).Pairwise (· ≤ ·)) :
    let bucket := TokenBucket.full (quota.interval * quota.limit) start
    (trace key store requests).map (fun event => event.2.limited) =
        (bucket.offers (requests.map Request.arrival)).1.map (fun admits => some !admits) ∧
      ∀ earlier last later, requests = earlier ++ last :: later →
        (bucket.offers ((earlier ++ [last]).map Request.arrival)).2.level =
          quota.limiter.delayVariationTolerance.nanos -
            storedLead (store.afterCalls key (earlier ++ [last])) key last.now := by
  intro bucket
  -- The bucket and the stored arrival time both follow the schedule, which nothing has started.
  have fresh : store.tat key = none := by simp [tat, storedTat, absent]
  have nows : (requests.map Request.arrival).map Arrival.now =
      requests.map fun request => request.now.nanos := by simp [Request.arrival]
  have initial : bucket.Matches (store.tat key) := by
    rw [fresh]
    exact TokenBucket.full_matches _ start
  constructor
  · have follows := initial.offers (by rw [nows]; exact ordered) (arrival_tolerance sameQuota)
    rw [trace_limited, follows.1]
  · intro earlier last later split
    subst split
    have shorter : earlier ++ [last] <+: earlier ++ last :: later := ⟨later, by simp⟩
    have orderedPart : (start :: ((earlier ++ [last]).map Request.arrival).map Arrival.now).Pairwise
        (· ≤ ·) := by
      refine ordered.sublist (List.Sublist.cons_cons start ?_)
      rw [← nows]
      exact ((shorter.sublist.map _).map _)
    have follows := initial.offers orderedPart
      (arrival_tolerance fun request member => sameQuota request (shorter.subset member))
    have matched := follows.2
    have dated := offers_asOf bucket (earlier.map Request.arrival) last.arrival
    rw [← List.map_singleton, ← List.map_append] at dated
    rw [TokenBucket.Matches, dated] at matched
    rw [matched, storedLead_eq, afterCalls_tat, PositiveQuota.limiter_tolerance]
    rfl

/-- Five calls of three tokens each leave one token of sixteen, and a sixth one is refused. -/
theorem refines_token_bucket_readme :
    let requests := List.replicate 6 (readmeRequest 5)
    let bucket := TokenBucket.full (readmeQuota.interval * readmeQuota.limit) 0
    let offered := bucket.offers (requests.map Request.arrival)
    offered.1 = [true, true, true, true, true, false] ∧ offered.2.level = 2000000000 ∧
      (trace "user123" MemoryStore.new requests).map (fun event => event.2.limited) =
        offered.1.map (fun admits => some !admits) ∧
      offered.2.level = readmeQuota.limiter.delayVariationTolerance.nanos -
        storedLead (MemoryStore.new.afterCalls "user123" requests) "user123" ⟨5000000000⟩ := by
  intro requests bucket offered
  -- Five of the six calls of three tokens empty a bucket of sixteen but for one.
  have refines := refines_token_bucket readmeQuota "user123" MemoryStore.new rfl requests
    (fun request member => by rw [List.eq_of_mem_replicate member]; rfl) 0 (by decide)
  exact ⟨by decide, by decide, refines.1, refines.2 (List.replicate 5 (readmeRequest 5))
    (readmeRequest 5) [] rfl⟩

/-- At the last instant a stored value can count to, the next arrival time wraps to the epoch. -/
theorem bucket_refuses_what_a_wrapped_store_admits :
    let limiter := RateLimiter.new ⟨0, Rate.perPeriod 1000000000 (Duration.seconds 1)⟩
    let now : OffsetDateTime := ⟨2 ^ 64 - 1⟩
    let first := MemoryStore.new.rateLimit limiter "user123" 1 now
    let second := first.2.rateLimit limiter "user123" 1 now
    let arrival : Arrival Int := ⟨now.nanos, 1, 1, by decide⟩
    limiter.emissionInterval.nanos = 1 ∧ limiter.delayVariationTolerance.nanos = 1 ∧
      [first.1.limited, second.1.limited] = [some false, some false] ∧
      ((TokenBucket.full (1 : Int) now.nanos).offers [arrival, arrival]).1 = [true, false] := by
  -- The second call finds the instant 0, to which the first one's time has wrapped.
  decide

end RedisCell
