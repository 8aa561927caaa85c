import ShardLedger.Arithmetic
/-
Double-precision numbers, exactly.

A JSON text may write a number with a fraction or an exponent.  Such a number is kept in double
precision, and the reading below is exact integer arithmetic: a magnitude is a whole number of units
of a power of two, and every product and quotient is rounded once, to the nearest magnitude, a tie
going to the even mantissa.  No machine arithmetic is involved, so what is read is a value that can
be reasoned about.
-/

set_option autoImplicit false

namespace ShardLedger

/-- **A finite double**: a sign, and `mantissa * 2 ^ exponent`. -/
structure Binary64 where
  negative : Bool
  mantissa : Nat
  exponent : Int
deriving DecidableEq, Repr

namespace Binary64

/-- **The least exponent**, that of the subnormal numbers. -/
def minExponent : Int := -1074

/-- **The greatest exponent.** -/
def maxExponent : Int := 971

/-- **A ratio of natural numbers**, as numerator and denominator. -/
abbrev Ratio := Nat × Nat

/-- **The ratio of a magnitude.** -/
def ratio (mantissa : Nat) (exponent : Int) : Ratio :=
  if 0 ≤ exponent then (mantissa * 2 ^ exponent.toNat, 1) else (mantissa, 2 ^ (-exponent).toNat)

/-- **Divide, rounding to nearest**; a tie goes to the even quotient. -/
def divideToEven (n d : Nat) : Nat :=
  let q := n / d
  let r := n % d
  if d < 2 * r ∨ (d = 2 * r ∧ q % 2 = 1) then q + 1 else q

/-- **The nearest magnitude to a ratio**, as mantissa and exponent.  Nothing if it lies beyond the
greatest. -/
def round? (x : Ratio) : Option (Nat × Int) :=
  if x.1 = 0 then some (0, minExponent)
  else
    let guess : Int := (Nat.log2 x.1 : Int) - (Nat.log2 x.2 : Int) - 52
    let scaled (e : Int) : Ratio :=
      if 0 ≤ e then (x.1, x.2 * 2 ^ e.toNat) else (x.1 * 2 ^ (-e).toNat, x.2)
    let exact := if (scaled guess).1 < (scaled guess).2 * 2 ^ 52 then guess - 1 else guess
    let e := max exact minExponent
    let q := divideToEven (scaled e).1 (scaled e).2
    let (m, e) := if q = 2 ^ 53 then (2 ^ 52, e + 1) else (q, e)
    if maxExponent < e then none else some (m, e)

/-- **A power of ten**, rounded, for exponents up to 308. -/
def powerOfTen? (k : Nat) : Option (Nat × Int) :=
  if k ≤ 308 then round? (10 ^ k, 1) else none

/-- **Shift a magnitude down** by a power of ten, dividing by `10 ^ 308` as long as the exponent is
beyond that.  Every division rounds.  The bound on the steps is never reached: a magnitude that has
been divided three times is zero. -/
def shiftDown : (bound : Nat) → (m : Nat × Int) → (k : Nat) → Option (Nat × Int)
  | 0, m, _ => some m
  | bound + 1, m, k =>
    let divide (j : Nat) : Option (Nat × Int) := do
      let p ← powerOfTen? j
      let (a, b) := ratio m.1 m.2
      let (c, d) := ratio p.1 p.2
      round? (a * d, b * c)
    if k ≤ 308 then divide k
    else if m.1 = 0 then some m
    else do shiftDown bound (← divide 308) (k - 308)

/-- **The double of a significand and a power of ten**: both are rounded, and so is their product or
quotient.  Nothing if the result is beyond the greatest double. -/
def ofScientific? (negative : Bool) (significand : Nat) (exponent : Int) : Option Binary64 := do
  let m ← round? (significand, 1)
  let (mantissa, e) ←
    if 0 ≤ exponent then
      match powerOfTen? exponent.toNat with
      | some p =>
        let (a, b) := ratio m.1 m.2
        let (c, d) := ratio p.1 p.2
        round? (a * c, b * d)
      | none => if m.1 = 0 then some m else none
    else shiftDown ((-exponent).toNat / 308 + 1) m (-exponent).toNat
  return ⟨negative, mantissa, e⟩

/-- **Zero**, of either sign. -/
def zero (negative : Bool) : Binary64 := ⟨negative, 0, minExponent⟩

end Binary64

end ShardLedger
