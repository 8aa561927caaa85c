import ShardLedger.AccountId
import ShardLedger.Duration
import ShardLedger.Saturation
/-
Points in time.

A timestamp counts seconds and nanoseconds since the epoch.  Values made here keep the nanoseconds
below a second; values off the wire need not, and are compared and written as they are, by seconds
first.  Arithmetic goes through one signed 64-bit count of nanoseconds, about 292 years either way
of the epoch, and stops at its ends.

The count is taken in two steps, and each step stops: first the seconds are turned into nanoseconds,
then the nanoseconds are added.  Near the lower end the two steps differ from one clamped sum, since
the product has already stopped when positive nanoseconds are added.
-/

set_option autoImplicit false

namespace ShardLedger

/-- **A point in time**: seconds and nanoseconds since the epoch. -/
structure Timestamp where
  seconds : Int64
  nanos : Int32
deriving DecidableEq, Repr

namespace Timestamp

/-! ## 1. Order -/

/-- **The order of timestamps**: by seconds, then by nanoseconds, whatever their range. -/
def order : Timestamp → Timestamp → Ordering :=
  compareLex (compareOn seconds) (compareOn nanos)

instance : Ord Timestamp := ⟨order⟩

instance : LT Timestamp := ⟨fun a b => compare a b = .lt⟩

instance : LE Timestamp := ⟨fun a b => compare a b ≠ .gt⟩

instance (a b : Timestamp) : Decidable (a < b) := inferInstanceAs (Decidable (compare a b = .lt))

instance (a b : Timestamp) : Decidable (a ≤ b) := inferInstanceAs (Decidable (compare a b ≠ .gt))

/-! ## 2. Nanosecond counts -/

/-- **Nanoseconds in a second**, as an integer. -/
def second : Int := 1000000000

/-- **The nanosecond count** of a timestamp, stopping at the ends of its word. -/
def asNanos (t : Timestamp) : Int64 :=
  saturateI64 ((saturateI64 (t.seconds.toInt * second)).toInt + t.nanos.toInt)

/-- **The timestamp of a nanosecond count**, with nanoseconds below a second. -/
def ofNanos (n : Int64) : Timestamp :=
  ⟨Int64.ofInt (n.toInt / second), Int32.ofInt (n.toInt % second)⟩

/-- **The timestamp of seconds and nanoseconds**, excess nanoseconds carried into the seconds. -/
def ofParts (seconds : Int64) (nanos : Int32) : Timestamp :=
  ofNanos (asNanos ⟨seconds, nanos⟩)

/-- **Later by a span**, stopping at the last timestamp. -/
def saturatingAdd (t : Timestamp) (d : Duration) : Timestamp :=
  ofNanos (saturateI64 (t.asNanos.toInt + (saturateI64 d.total).toInt))

/-- **Earlier by a span**, stopping at the first timestamp. -/
def saturatingSub (t : Timestamp) (d : Duration) : Timestamp :=
  ofNanos (saturateI64 (t.asNanos.toInt - (saturateI64 d.total).toInt))

/-- **The epoch.** -/
def epoch : Timestamp := ⟨0, 0⟩

/-! ## 3. Text -/

/-- **The text form**: seconds, a dot, and the nanoseconds padded to nine places. -/
def chars (t : Timestamp) : List Char :=
  Text.integer t.seconds.toInt ++ '.' :: Text.paddedInteger 9 t.nanos.toInt

/-- **The text form** as a string. -/
def text (t : Timestamp) : String :=
  String.ofList t.chars

/-- **Read the text form.**  The nanoseconds are a count of one to nine digits, so that `1.7` is
seven nanoseconds after one second. -/
def ofChars? (cs : List Char) : Option Timestamp := do
  let (whole, rest) ← Text.cut '.' cs
  let s ← Text.number? whole
  let n ← Text.number? rest
  if rest.length ≤ 9 ∧ s < 2 ^ 63 then some ⟨Int64.ofNat s, Int32.ofNat n⟩ else none

/-- **Read the text form**, or refuse the whole input. -/
def parse (s : String) : Except Malformed Timestamp :=
  match ofChars? s.toList with
  | some t => .ok t
  | none => .error ⟨.timestamp, s⟩

/-! ## 4. The order is total -/

instance : Std.TransOrd Timestamp :=
  inferInstanceAs (Std.TransCmp (compareLex (compareOn seconds) (compareOn nanos)))

instance : Std.LawfulEqOrd Timestamp where
  eq_of_compare := by
    intro a b h
    change order a b = .eq at h
    obtain ⟨s, n⟩ := a
    obtain ⟨s', n'⟩ := b
    simp only [order, compareLex, compareOn, Ordering.then_eq_eq,
      Std.LawfulEqOrd.compare_eq_iff_eq] at h
    simp_all

end Timestamp

/-! ## 5. Calendar readings -/

/-- **A reading of a calendar clock**: seconds since the epoch and nanoseconds, which pass a second
only in a leap second, the last of its minute. -/
structure ClockReading where
  seconds : Int64
  nanos : UInt32
deriving DecidableEq

namespace ClockReading

/-- **The range of a calendar** of about 262 thousand years either way. -/
def inCalendar (seconds : Int64) : Bool :=
  -8334601228800 ≤ seconds.toInt && seconds.toInt ≤ 8210266876799

/-- **A calendar clock can show it.** -/
def Proper (r : ClockReading) : Prop :=
  inCalendar r.seconds ∧
    (r.nanos.toNat < nanosPerSecond ∨ (r.nanos.toNat < 2 * nanosPerSecond ∧ r.seconds.toInt % 60 = 59))

instance (r : ClockReading) : Decidable r.Proper :=
  inferInstanceAs (Decidable (_ ∧ _))

/-- **The timestamp of a reading**; a leap second carries into the next minute. -/
def timestamp (r : ClockReading) : Timestamp :=
  Timestamp.ofParts r.seconds (Int32.ofNat r.nanos.toNat)

end ClockReading

end ShardLedger
