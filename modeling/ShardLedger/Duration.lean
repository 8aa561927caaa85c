import ShardLedger.Arithmetic
/-
Spans of time.

A span counts whole nanoseconds, and is written as seconds and nanoseconds with the seconds in an
unsigned 64-bit word.  That word bounds every span: arithmetic either says that its result does not
fit or stops at the longest span.
-/

set_option autoImplicit false

namespace ShardLedger

/-- **Nanoseconds in a second.** -/
def nanosPerSecond : Nat := 1000000000

/-- **A span of time**, in nanoseconds, short enough for its seconds to fit their word. -/
structure Duration where
  total : Nat
  total_lt : total < 2 ^ 64 * nanosPerSecond
deriving DecidableEq

namespace Duration

/-- **The span of a number of nanoseconds**, if it is not too long. -/
def ofNanos? (n : Nat) : Option Duration :=
  if h : n < 2 ^ 64 * nanosPerSecond then some ⟨n, h⟩ else none

/-- **The longest span.** -/
def longest : Duration :=
  ⟨2 ^ 64 * nanosPerSecond - 1, by decide⟩

/-- **No time at all.** -/
def zero : Duration :=
  ⟨0, by decide⟩

/-- **The span of seconds and nanoseconds**; excess nanoseconds carry into the seconds, which may
then no longer fit. -/
def ofParts? (seconds : UInt64) (nanos : UInt32) : Option Duration :=
  ofNanos? (seconds.toNat * nanosPerSecond + nanos.toNat)

/-- **A number of whole seconds.** -/
def ofSeconds (seconds : UInt64) : Duration :=
  ⟨seconds.toNat * nanosPerSecond, Nat.mul_lt_mul_of_pos_right seconds.toNat_lt (by decide)⟩

/-- **A number of milliseconds** within a 64-bit word. -/
def ofMillis (millis : UInt64) : Duration :=
  ⟨millis.toNat * 1000000, by
    have := millis.toNat_lt
    simp only [nanosPerSecond]
    omega⟩

/-- **The whole seconds of a span.** -/
def seconds (d : Duration) : UInt64 :=
  UInt64.ofNat (d.total / nanosPerSecond)

/-- **The nanoseconds beyond the whole seconds.** -/
def subsecNanos (d : Duration) : Nat :=
  d.total % nanosPerSecond

instance : LE Duration := ⟨fun a b => a.total ≤ b.total⟩

instance : LT Duration := ⟨fun a b => a.total < b.total⟩

instance (a b : Duration) : Decidable (a ≤ b) := inferInstanceAs (Decidable (a.total ≤ b.total))

instance (a b : Duration) : Decidable (a < b) := inferInstanceAs (Decidable (a.total < b.total))

instance : Min Duration := ⟨fun a b => if a ≤ b then a else b⟩

/-- **Multiply**, if the product is not too long. -/
def mul? (d : Duration) (k : Nat) : Option Duration :=
  ofNanos? (d.total * k)

/-- **Multiply, stopping at the longest span.** -/
def saturatingMul (d : Duration) (k : Nat) : Duration :=
  (d.mul? k).getD longest

/-- **Subtract, stopping at zero.** -/
def saturatingSub (a b : Duration) : Duration :=
  ⟨a.total - b.total, Nat.lt_of_le_of_lt (Nat.sub_le _ _) a.total_lt⟩

/-! ## Values of the operations -/

@[ext]
theorem ext {a b : Duration} (h : a.total = b.total) : a = b := by
  cases a
  cases b
  simp_all

theorem le_iff {a b : Duration} : a ≤ b ↔ a.total ≤ b.total := Iff.rfl

@[simp]
theorem total_min (a b : Duration) : (min a b).total = min a.total b.total := by
  show (if a ≤ b then a else b).total = _
  split <;> simp_all only [le_iff] <;> omega

@[simp]
theorem total_saturatingSub (a b : Duration) : (a.saturatingSub b).total = a.total - b.total := rfl

theorem total_ofSeconds (s : UInt64) : (ofSeconds s).total = s.toNat * nanosPerSecond := rfl

/-- Whole seconds lose only the fraction. -/
theorem toNat_seconds (d : Duration) : d.seconds.toNat = d.total / nanosPerSecond := by
  have h := d.total_lt
  have : d.total / nanosPerSecond < 2 ^ 64 := by
    apply Nat.div_lt_of_lt_mul
    rw [Nat.mul_comm]
    exact h
  rw [seconds, UInt64.toNat_ofNat_of_lt' (by simpa using this)]

/-! ## The text of a span -/

/-- **Drop the zeros at the end.** -/
def stripZeros (cs : List Char) : List Char :=
  (cs.reverse.dropWhile (· = '0')).reverse

/-- **A whole number and a fraction** of `width` digits, as a decimal without trailing zeros. -/
def decimal (whole fraction width : Nat) : List Char :=
  let shown := Nat.toDigits 10 fraction
  let padded := stripZeros (List.replicate (width - shown.length) '0' ++ shown)
  Nat.toDigits 10 whole ++ (if fraction = 0 then [] else '.' :: padded)

/-- **The text of a span** in messages: in the largest of seconds, milliseconds, microseconds and
nanoseconds that it has at least one of, with what is left as a decimal fraction. -/
def text (d : Duration) : String :=
  let n := d.total
  let chars :=
    if nanosPerSecond ≤ n then decimal (n / nanosPerSecond) (n % nanosPerSecond) 9 ++ ['s']
    else if 1000000 ≤ n then decimal (n / 1000000) (n % 1000000) 6 ++ ['m', 's']
    else if 1000 ≤ n then decimal (n / 1000) (n % 1000) 3 ++ ['µ', 's']
    else decimal n 0 0 ++ ['n', 's']
  String.ofList chars

end Duration

end ShardLedger
