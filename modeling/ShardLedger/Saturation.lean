import ShardLedger.Arithmetic
/-
Saturation: arithmetic that stops at the ends of a word.

Wire numbers have fixed width.  Where a sum or a product leaves its word the nearest end of the word
stands in for it; the functions below say so once, on exact integers, and every clamped operation of
the library is one of them applied to an exact value.
-/

set_option autoImplicit false

namespace ShardLedger

/-- **The signed 64-bit word nearest to an integer.** -/
def saturateI64 (x : Int) : Int64 :=
  if x < Int64.minValue.toInt then Int64.minValue
  else if Int64.maxValue.toInt < x then Int64.maxValue
  else Int64.ofInt x

/-- **The unsigned 64-bit word nearest to a natural number.** -/
def saturateU64 (n : Nat) : UInt64 :=
  if n < UInt64.size then UInt64.ofNat n else UInt64.ofNat (UInt64.size - 1)

/-- **The signed 64-bit word of an integer**, if it has one. -/
def toI64? (x : Int) : Option Int64 :=
  if Int64.minValue.toInt ≤ x ∧ x ≤ Int64.maxValue.toInt then some (Int64.ofInt x) else none

/-- **The unsigned 64-bit word of an integer**, if it has one. -/
def toU64? (x : Int) : Option UInt64 :=
  if 0 ≤ x ∧ x < UInt64.size then some (UInt64.ofNat x.toNat) else none

/-! ## What saturation does -/

theorem toInt_saturateI64 (x : Int) :
    (saturateI64 x).toInt = max (-2 ^ 63) (min x (2 ^ 63 - 1)) := by
  unfold saturateI64
  have hmin : Int64.minValue.toInt = -2 ^ 63 := by decide
  have hmax : Int64.maxValue.toInt = 2 ^ 63 - 1 := by decide
  split
  · omega
  · split
    · omega
    · rw [Int64.toInt_ofInt_of_le (by omega) (by omega)]
      omega

theorem toNat_saturateU64 (n : Nat) : (saturateU64 n).toNat = min n (2 ^ 64 - 1) := by
  unfold saturateU64
  have hs : UInt64.size = 2 ^ 64 := rfl
  split
  · rw [UInt64.toNat_ofNat_of_lt' (by omega)]
    omega
  · rw [UInt64.toNat_ofNat_of_lt' (by omega)]
    omega

/-- A word is its own nearest word. -/
theorem saturateI64_toInt (x : Int64) : saturateI64 x.toInt = x := by
  apply Int64.toInt_inj.mp
  rw [toInt_saturateI64]
  have := x.toInt_lt
  have := x.le_toInt
  omega

theorem saturateU64_toNat (x : UInt64) : saturateU64 x.toNat = x := by
  apply UInt64.toNat_inj.mp
  rw [toNat_saturateU64]
  have := x.toNat_lt
  omega

end ShardLedger
