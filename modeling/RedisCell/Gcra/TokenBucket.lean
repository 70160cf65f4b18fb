import RedisCell.Gcra.Schedule

/-! A bucket that refills over time makes the decisions of the virtual schedule. -/

namespace Gcra

section Bucket

variable {α : Type} [AddCommGroup α] [LinearOrder α]

/-- A level that never exceeds its capacity, as it stood at an instant. -/
structure TokenBucket (capacity : α) where
  level : α
  asOf : α
  bounded : level ≤ capacity

namespace TokenBucket

variable {capacity : α}

/-- A bucket that starts full. -/
def full (capacity start : α) : TokenBucket capacity := ⟨capacity, start, le_rfl⟩

/-- Let time pass: one unit flows in for each unit of time, up to the capacity. -/
def refill (bucket : TokenBucket capacity) (now : α) : TokenBucket capacity :=
  ⟨min capacity (bucket.level + (now - bucket.asOf)), now, min_le_left _ _⟩

variable [IsOrderedAddMonoid α]

/-- Admit a request whose cost the level covers, and take the cost out of it. -/
def offer (bucket : TokenBucket capacity) (arrival : Arrival α) : Bool × TokenBucket capacity :=
  let filled := bucket.refill arrival.now
  if arrival.cost ≤ filled.level then
    (true, ⟨filled.level - arrival.cost, arrival.now,
      (sub_le_self _ arrival.nonneg).trans filled.bounded⟩)
  else (false, filled)

/-- The decisions on a run of requests, and the bucket they leave. -/
def offers (bucket : TokenBucket capacity) : List (Arrival α) → List Bool × TokenBucket capacity
  | [] => ([], bucket)
  | arrival :: rest =>
    let (decision, next) := bucket.offer arrival
    let (decisions, last) := next.offers rest
    (decision :: decisions, last)

omit [IsOrderedAddMonoid α] in
/-- The level falls short of the capacity by exactly the lead of the schedule over the instant. -/
def Matches (bucket : TokenBucket capacity) (tat : Option α) : Prop :=
  bucket.level = capacity - (due tat bucket.asOf - bucket.asOf)

omit [IsOrderedAddMonoid α] in
/-- A full bucket matches a schedule that has not started. -/
theorem full_matches (capacity start : α) : (full capacity start).Matches none := by
  simp [Matches, full]

/-- Waiting keeps a bucket and its schedule matched. -/
theorem Matches.refill {bucket : TokenBucket capacity} {tat : Option α}
    (matched : bucket.Matches tat) {now : α} (later : bucket.asOf ≤ now) :
    (bucket.refill now).Matches tat := by
  -- The level rises with the clock, and the lead falls with it.
  unfold Matches at *
  simp only [TokenBucket.refill, matched]
  have waited : 0 ≤ now - bucket.asOf := sub_nonneg.mpr later
  -- The cap is reached exactly when the schedule no longer lies ahead.
  cases tat with
  | none => simp [waited]
  | some tat =>
    rw [due_some, due_some]
    rcases le_total tat now with past | ahead
    · have reached : max bucket.asOf tat ≤ now := max_le later past
      rw [max_eq_left past, sub_self, sub_zero, min_eq_left]
      calc capacity ≤ capacity + (now - max bucket.asOf tat) :=
            le_add_of_nonneg_right (sub_nonneg.mpr reached)
        _ = capacity - (max bucket.asOf tat - bucket.asOf) + (now - bucket.asOf) := by abel
    · rw [max_eq_right ahead, max_eq_right (later.trans ahead), min_eq_right]
      · abel
      · calc capacity - (tat - bucket.asOf) + (now - bucket.asOf)
            = capacity - (tat - now) := by abel
          _ ≤ capacity := sub_le_self _ (sub_nonneg.mpr ahead)

/-- A filled bucket covers a request exactly when the request conforms to the schedule. -/
theorem Matches.covers_iff {bucket : TokenBucket capacity} {tat : Option α}
    (matched : bucket.Matches tat) {arrival : Arrival α} (present : bucket.asOf = arrival.now)
    (uniform : arrival.tolerance = capacity) :
    arrival.cost ≤ bucket.level ↔ Conforms tat arrival := by
  -- Both tests compare the lead and the cost together with the capacity.
  rw [matched, present, Conforms, uniform, le_sub_iff_add_le', ← sub_le_iff_le_add']
  have regrouped : due tat arrival.now - arrival.now + arrival.cost =
      due tat arrival.now + arrival.cost - arrival.now := by abel
  rw [regrouped]

/-- One request is decided alike by a bucket and its schedule, which stay matched. -/
theorem Matches.offer {bucket : TokenBucket capacity} {tat : Option α}
    (matched : bucket.Matches tat) {arrival : Arrival α} (later : bucket.asOf ≤ arrival.now)
    (uniform : arrival.tolerance = capacity) :
    (bucket.offer arrival).1 = decide (Conforms tat arrival) ∧
      (bucket.offer arrival).2.Matches (advance tat arrival) ∧
      (bucket.offer arrival).2.asOf = arrival.now := by
  -- The bucket covers the cost exactly when the request conforms.
  have filled := matched.refill later
  have covers : arrival.cost ≤ (bucket.refill arrival.now).level ↔ Conforms tat arrival :=
    filled.covers_iff rfl uniform
  by_cases conforms : Conforms tat arrival
  · simp only [TokenBucket.offer, if_pos (covers.mpr conforms), conforms, decide_true, true_and,
      and_true, advance_conforming conforms]
    -- The new end of the schedule lies ahead of now, so the whole cost counts as lead.
    have moved := due_moved tat arrival.now arrival.nonneg
    have level : (bucket.refill arrival.now).level =
        capacity - (due tat arrival.now - arrival.now) := filled
    show (bucket.refill arrival.now).level - arrival.cost = capacity -
      (due (some (due tat arrival.now + arrival.cost)) arrival.now - arrival.now)
    rw [level, moved]
    abel
  · simp only [TokenBucket.offer, if_neg (mt covers.mp conforms), conforms, decide_false,
      advance_refused conforms, true_and]
    exact ⟨filled, rfl⟩

/-- A bucket and its schedule decide a whole run alike and stay matched. -/
theorem Matches.offers {bucket : TokenBucket capacity} {tat : Option α}
    (matched : bucket.Matches tat) {arrivals : List (Arrival α)}
    (ordered : (bucket.asOf :: arrivals.map Arrival.now).Pairwise (· ≤ ·))
    (uniform : ∀ arrival ∈ arrivals, arrival.tolerance = capacity) :
    (bucket.offers arrivals).1 = decisions tat arrivals ∧
      (bucket.offers arrivals).2.Matches (after tat arrivals) := by
  -- Each request finds the bucket and the schedule as the requests before it left them.
  induction arrivals generalizing bucket tat with
  | nil => exact ⟨rfl, matched⟩
  | cons arrival rest ih =>
    simp only [List.map_cons, List.pairwise_cons] at ordered
    obtain ⟨earlier, ordered⟩ := ordered
    obtain ⟨decided, kept, present⟩ :=
      matched.offer (earlier _ (by simp)) (uniform arrival (by simp))
    obtain ⟨same, last⟩ := ih kept (by rw [present]; exact List.pairwise_cons.mpr ordered)
      (fun other member => uniform other (by simp [member]))
    simp only [TokenBucket.offers, decisions, after_cons]
    exact ⟨by rw [decided, same], last⟩

end TokenBucket

end Bucket

end Gcra
