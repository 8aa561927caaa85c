import ShardLedger.Bytes
/-
The twisted Edwards curve of Ed25519.

Points are pairs of residues modulo a prime, kept in extended coordinates so that adding needs no
division.  A point is written as its second coordinate with the parity of the first in the top bit.
Reading is liberal in two ways: a second coordinate that is not reduced is reduced, and zero may be
marked odd.
-/

set_option autoImplicit false

namespace ShardLedger

namespace Edwards

/-! ## 1. The field -/

/-- **The prime modulus.** -/
def modulus : Nat := 2 ^ 255 - 19

/-- **The order of the base point.** -/
def order : Nat := 2 ^ 252 + 27742317777372353535851937790883648493

/-- **Multiply residues.** -/
def mul (x y : Nat) : Nat := x * y % modulus

/-- **Add residues.** -/
def add (x y : Nat) : Nat := (x + y) % modulus

/-- **Subtract residues.** -/
def sub (x y : Nat) : Nat := (x + modulus - y) % modulus

/-- **The bits of a number** of at most 256, highest first. -/
def bits (n : Nat) : List Bool :=
  ((List.range 256).map n.testBit).reverse

/-- **A power of a residue.** -/
def pow (x n : Nat) : Nat :=
  (bits n).foldl (fun acc b => if b then mul (mul acc acc) x else mul acc acc) 1

/-- **The inverse of a residue**, and zero for zero. -/
def inverse (x : Nat) : Nat :=
  pow x (modulus - 2)

/-- **The coefficient of the curve.** -/
def coefficient : Nat :=
  mul (modulus - 121665) (inverse 121666)

/-- **A square root of minus one.** -/
def rootOfMinusOne : Nat :=
  pow 2 ((modulus - 1) / 4)

/-- **A root of a quotient** `u / v`, if it is a square. -/
def rootOfQuotient? (u v : Nat) : Option Nat :=
  let v3 := mul (mul v v) v
  let v7 := mul (mul v3 v3) v
  let r := mul (mul u v3) (pow (mul u v7) ((modulus - 5) / 8))
  let check := mul v (mul r r)
  if check = u then some r
  else if check = sub 0 u then some (mul r rootOfMinusOne)
  else none

/-! ## 2. Points -/

/-- **A point** in extended coordinates: `x = X / Z`, `y = Y / Z`, `x * y = T / Z`. -/
structure Point where
  x : Nat
  y : Nat
  z : Nat
  t : Nat

namespace Point

/-- **The neutral point.** -/
def zero : Point := ⟨0, 1, 1, 0⟩

/-- **Add points.** -/
def plus (p q : Point) : Point :=
  let a := mul (sub p.y p.x) (sub q.y q.x)
  let b := mul (add p.y p.x) (add q.y q.x)
  let c := mul (mul (add p.t p.t) q.t) coefficient
  let d := mul (add p.z p.z) q.z
  let e := sub b a
  let f := sub d c
  let g := add d c
  let h := add b a
  ⟨mul e f, mul g h, mul f g, mul e h⟩

/-- **The opposite point.** -/
def negate (p : Point) : Point :=
  ⟨sub 0 p.x, p.y, p.z, sub 0 p.t⟩

/-- **A multiple of a point**, by doubling and adding. -/
def times (n : Nat) (p : Point) : Point :=
  (bits n).foldl (fun acc b => if b then (acc.plus acc).plus p else acc.plus acc) zero

/-- **The thirty-two bytes of a point.** -/
def toBytes (p : Point) : Bytes :=
  let i := inverse p.z
  let x := mul p.x i
  let y := mul p.y i
  Bytes.ofNatLE 32 (y + x % 2 * 2 ^ 255)

/-- **The point that bytes write**, if they write one. -/
def ofBytes? (b : Bytes) : Option Point := do
  let n := Bytes.toNatLE b
  let y := n % 2 ^ 255 % modulus
  let yy := mul y y
  let r ← rootOfQuotient? (sub yy 1) (add (mul coefficient yy) 1)
  let x := if r % 2 = n / 2 ^ 255 % 2 then r else sub 0 r
  return ⟨x, y, 1, mul x y⟩

/-- **The base point**, with four fifths as its second coordinate and an even first one. -/
def base : Point :=
  match ofBytes? (Bytes.ofNatLE 32 (mul 4 (inverse 5))) with
  | some p => p
  | none => zero

end Point

end Edwards

end ShardLedger
