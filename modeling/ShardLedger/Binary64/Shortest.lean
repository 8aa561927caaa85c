import ShardLedger.Binary64
/-
The shortest decimal of a double.

Every real number closer to a double than to its neighbours reads back as that double; the two ends
of that interval do so when the mantissa is even.  The text of a double has the fewest digits that
any number of the interval has, and among those the nearest.  On the grid of decimals with a given
number of digits only the two neighbours of the double need to be tried, since a grid point in the
interval has one of them between itself and the double.
-/

set_option autoImplicit false

namespace ShardLedger

namespace Binary64

/-- **A decimal**: `digits * 10 ^ exponent`. -/
structure Decimal where
  digits : Nat
  exponent : Int
deriving DecidableEq, Repr

/-- **The decimal exponent** of a positive ratio: the greatest `k` with `10 ^ k` at most the ratio. -/
def decimalExponent (x : Ratio) : Int :=
  if x.2 ≤ x.1 then ((Nat.toDigits 10 (x.1 / x.2)).length : Int) - 1
  else
    let l := (Nat.toDigits 10 (x.2 / x.1)).length
    if x.2 ≤ x.1 * 10 ^ (l - 1) then 1 - (l : Int) else -(l : Int)

/-- **A ratio in units of a power of ten.** -/
def scaleDown (x : Ratio) (k : Int) : Ratio :=
  if 0 ≤ k then (x.1, x.2 * 10 ^ k.toNat) else (x.1 * 10 ^ (-k).toNat, x.2)

/-- **The decimal with `n` digits that reads back**, if one of the two grid neighbours does; the
nearer one, and of two equally near ones the even one. -/
def withDigits? (x : Binary64) (n : Nat) : Option Decimal :=
  let quarter := x.exponent - 2
  let value := ratio (4 * x.mantissa) quarter
  let below := if x.mantissa = 2 ^ 52 ∧ minExponent < x.exponent then 1 else 2
  let low := ratio (4 * x.mantissa - below) quarter
  let high := ratio (4 * x.mantissa + 2) quarter
  let closed := x.mantissa % 2 = 0
  let k := decimalExponent value + 1 - n
  let v := scaleDown value k
  let lo := scaleDown low k
  let hi := scaleDown high k
  let floor := v.1 / v.2
  let inside (d : Nat) : Bool :=
    if closed then lo.1 ≤ d * lo.2 && d * hi.2 ≤ hi.1 else lo.1 < d * lo.2 && d * hi.2 < hi.1
  let nearer : Nat :=
    let r := v.1 % v.2
    if 2 * r < v.2 ∨ (2 * r = v.2 ∧ floor % 2 = 0) then floor else floor + 1
  match inside floor, inside (floor + 1) with
  | true, true => some ⟨nearer, k⟩
  | true, false => some ⟨floor, k⟩
  | false, true => some ⟨floor + 1, k⟩
  | false, false => none

/-- **Drop zeros at the end of the digits**, at most `bound` of them. -/
def dropZeros : (bound : Nat) → Decimal → Decimal
  | 0, d => d
  | bound + 1, d =>
    if d.digits % 10 = 0 ∧ d.digits ≠ 0 then dropZeros bound ⟨d.digits / 10, d.exponent + 1⟩ else d

/-- **The shortest decimal** that reads back.  Seventeen digits always do. -/
def shortest (x : Binary64) : Decimal :=
  match (List.range 17).findSome? fun i => withDigits? x (i + 1) with
  | some d => dropZeros 17 d
  | none => ⟨0, 0⟩

/-! ## The text -/

/-- **The text of a double**: positional up to sixteen digits before the point and four zeros after
it, always with a point; beyond that with an exponent, which always has a sign. -/
def chars (x : Binary64) : List Char :=
  let sign := if x.negative then ['-'] else []
  if x.mantissa = 0 then sign ++ ['0', '.', '0']
  else
    let d := shortest x
    let ds := Nat.toDigits 10 d.digits
    let n : Int := ds.length
    let point := n + d.exponent
    let power : List Char :=
      let e := point - 1
      ['e', if e < 0 then '-' else '+'] ++ Nat.toDigits 10 e.natAbs
    sign ++
      (if 0 ≤ d.exponent ∧ point ≤ 16 then
        ds ++ List.replicate d.exponent.toNat '0' ++ ['.', '0']
      else if 0 < point ∧ point ≤ 16 then
        ds.take point.toNat ++ '.' :: ds.drop point.toNat
      else if -5 < point ∧ point ≤ 0 then
        ['0', '.'] ++ List.replicate (-point).toNat '0' ++ ds
      else if n = 1 then ds ++ power
      else ds.take 1 ++ '.' :: ds.drop 1 ++ power)

end Binary64

end ShardLedger
