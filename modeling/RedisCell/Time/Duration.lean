import RedisCell.Machine

/-! Signed spans of time and instants, as exact nanosecond counts. -/

namespace RedisCell

/--
A signed span of time, `time::Duration`.

Seconds and sub-second nanoseconds of one sign are the same data as their exact total.
-/
@[ext] structure Duration where
  /-- The whole number of nanoseconds in the span. -/
  nanos : Int
  deriving DecidableEq, Repr

/-- An instant in UTC, `time::OffsetDateTime`. -/
@[ext] structure OffsetDateTime where
  /-- The nanoseconds since the Unix epoch, negative before it. -/
  nanos : Int
  deriving DecidableEq, Repr

namespace Duration

/-- The empty span. -/
def zero : Duration := ⟨0⟩

/-- A span of whole seconds and further nanoseconds. -/
def new (seconds nanoseconds : Int) : Duration := ⟨seconds * 1000000000 + nanoseconds⟩

/-- A span of whole nanoseconds. -/
def nanoseconds (count : Int64) : Duration := ⟨count.toInt⟩

/-- A span of whole seconds. -/
def seconds (count : Int64) : Duration := ⟨count.toInt * 1000000000⟩

/-- The whole nanoseconds of a span, which is all of it. -/
def wholeNanoseconds (span : Duration) : Int := span.nanos

/-- The whole microseconds of a span, truncated toward zero. -/
def wholeMicroseconds (span : Duration) : Int := span.nanos.tdiv 1000

/-- The whole milliseconds of a span, truncated toward zero. -/
def wholeMilliseconds (span : Duration) : Int := span.nanos.tdiv 1000000

/-- The whole seconds of a span, truncated toward zero. -/
def wholeSeconds (span : Duration) : Int := span.nanos.tdiv 1000000000

/-- The nanoseconds past the last whole second, carrying the sign of the span. -/
def subsecNanoseconds (span : Duration) : Int := span.nanos.tmod 1000000000

/-- The whole milliseconds past the last whole second, carrying the sign of the span. -/
def subsecMilliseconds (span : Duration) : Int := span.subsecNanoseconds.tdiv 1000000

instance : Add Duration := ⟨fun left right => ⟨left.nanos + right.nanos⟩⟩
instance : Sub Duration := ⟨fun left right => ⟨left.nanos - right.nanos⟩⟩
instance : Neg Duration := ⟨fun span => ⟨-span.nanos⟩⟩
instance : LT Duration := ⟨fun left right => left.nanos < right.nanos⟩
instance : LE Duration := ⟨fun left right => left.nanos ≤ right.nanos⟩

instance (left right : Duration) : Decidable (left < right) :=
  inferInstanceAs (Decidable (left.nanos < right.nanos))

instance (left right : Duration) : Decidable (left ≤ right) :=
  inferInstanceAs (Decidable (left.nanos ≤ right.nanos))

/-- The empty span has no nanoseconds. -/
@[simp] theorem zero_nanos : zero.nanos = 0 := rfl

/-- A span of nanoseconds has as many as it is given. -/
@[simp] theorem nanoseconds_nanos (count : Int64) : (nanoseconds count).nanos = count.toInt := rfl

/-- A second has a thousand million nanoseconds. -/
@[simp] theorem seconds_nanos (count : Int64) :
    (seconds count).nanos = count.toInt * 1000000000 := rfl

/-- Spans are subtracted in nanoseconds. -/
@[simp] theorem sub_nanos (left right : Duration) :
    (left - right).nanos = left.nanos - right.nanos := rfl

/-- A span is negated in nanoseconds. -/
@[simp] theorem neg_nanos (span : Duration) : (-span).nanos = -span.nanos := rfl

/-- Spans are compared by their nanoseconds. -/
theorem lt_iff (left right : Duration) : left < right ↔ left.nanos < right.nanos := Iff.rfl

/-- Spans are compared by their nanoseconds, equal ones included. -/
theorem le_iff (left right : Duration) : left ≤ right ↔ left.nanos ≤ right.nanos := Iff.rfl

end Duration

namespace OffsetDateTime

/-- The years from -9999 to 9999, which are all that the type represents. -/
def Representable (instant : OffsetDateTime) : Prop :=
  -377705116800 * 1000000000 ≤ instant.nanos ∧ instant.nanos < 253402300800 * 1000000000

/-- The instant from which Unix time is counted. -/
def unixEpoch : OffsetDateTime := ⟨0⟩

instance : HAdd OffsetDateTime Duration OffsetDateTime :=
  ⟨fun instant span => ⟨instant.nanos + span.nanos⟩⟩
instance : HSub OffsetDateTime Duration OffsetDateTime :=
  ⟨fun instant span => ⟨instant.nanos - span.nanos⟩⟩
instance : HSub OffsetDateTime OffsetDateTime Duration :=
  ⟨fun later earlier => ⟨later.nanos - earlier.nanos⟩⟩
instance : LT OffsetDateTime := ⟨fun left right => left.nanos < right.nanos⟩
instance : LE OffsetDateTime := ⟨fun left right => left.nanos ≤ right.nanos⟩

instance (left right : OffsetDateTime) : Decidable (left < right) :=
  inferInstanceAs (Decidable (left.nanos < right.nanos))

instance (left right : OffsetDateTime) : Decidable (left ≤ right) :=
  inferInstanceAs (Decidable (left.nanos ≤ right.nanos))

/-- Instants are counted from the epoch. -/
@[simp] theorem unixEpoch_nanos : unixEpoch.nanos = 0 := rfl

/-- A span moves an instant on by its nanoseconds. -/
@[simp] theorem add_nanos (instant : OffsetDateTime) (span : Duration) :
    (instant + span).nanos = instant.nanos + span.nanos := rfl

/-- A span moves an instant back by its nanoseconds. -/
@[simp] theorem sub_span_nanos (instant : OffsetDateTime) (span : Duration) :
    (instant - span).nanos = instant.nanos - span.nanos := rfl

/-- Two instants are as far apart as their counts. -/
@[simp] theorem sub_nanos (later earlier : OffsetDateTime) :
    (later - earlier).nanos = later.nanos - earlier.nanos := rfl

/-- Instants are compared by their counts. -/
theorem lt_iff (left right : OffsetDateTime) : left < right ↔ left.nanos < right.nanos := Iff.rfl

/-- Instants are compared by their counts, equal ones included. -/
theorem le_iff (left right : OffsetDateTime) : left ≤ right ↔ left.nanos ≤ right.nanos := Iff.rfl

end OffsetDateTime

end RedisCell
