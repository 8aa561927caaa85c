import ShardLedger.Bytes
/-
The hash functions SHA-512 and SHA-384.

Both compress blocks of 128 bytes into a state of eight 64-bit words; they differ in the words they
start from and in how much of the last state they give.  The constants are no table: they are the
first 64 bits behind the point of the square and cube roots of the first primes, and are computed from
that.
-/

set_option autoImplicit false

namespace ShardLedger

namespace Sha2

/-! ## 1. Constants -/

/-- **The greatest number whose power does not pass a bound**, bit by bit from the highest. -/
def rootBelow (power bound : Nat) : (bits : Nat) → (acc : Nat) → Nat
  | 0, acc => acc
  | bits + 1, acc =>
    let next := acc + 2 ^ bits
    rootBelow power bound bits (if next ^ power ≤ bound then next else acc)

/-- **The first 64 bits behind the point** of a root of a small number. -/
def rootBits (power n : Nat) : UInt64 :=
  UInt64.ofNat (rootBelow power (n * 2 ^ (64 * power)) 70 0)

/-- **A prime number**, by trial. -/
def isPrime (n : Nat) : Bool :=
  2 ≤ n && (List.range n).all fun d => d < 2 || n % d ≠ 0

/-- **The first eighty primes.** -/
def primes : List Nat :=
  (List.range 410).filter isPrime

/-- **The constants of the eighty rounds**, from cube roots. -/
def roundConstants : List UInt64 :=
  primes.map (rootBits 3)

/-! ## 2. Compression -/

/-- **The eight words** of a state. -/
structure Words where
  a : UInt64
  b : UInt64
  c : UInt64
  d : UInt64
  e : UInt64
  f : UInt64
  g : UInt64
  h : UInt64

/-- **The words of a list**, zeros where it is too short. -/
def Words.ofList (ws : List UInt64) : Words :=
  let w := fun i => ws.getD i 0
  ⟨w 0, w 1, w 2, w 3, w 4, w 5, w 6, w 7⟩

/-- **The words of a state** as a list. -/
def Words.toList (s : Words) : List UInt64 :=
  [s.a, s.b, s.c, s.d, s.e, s.f, s.g, s.h]

/-- **Rotate right.** -/
def rotate (x : UInt64) (n : UInt64) : UInt64 :=
  (x >>> n) ||| (x <<< (64 - n))

/-- **Extend a block** of sixteen words to eighty. -/
def extend (block : Array UInt64) : Array UInt64 :=
  (List.range 64).foldl
    (fun w i =>
      let x := w.getD (i + 1) 0
      let y := w.getD (i + 14) 0
      let s0 := rotate x 1 ^^^ rotate x 8 ^^^ (x >>> 7)
      let s1 := rotate y 19 ^^^ rotate y 61 ^^^ (y >>> 6)
      w.push (w.getD i 0 + s0 + w.getD (i + 9) 0 + s1))
    block

/-- **One round**, with its constant and its word of the extended block. -/
def round (s : Words) (k w : UInt64) : Words :=
  let s1 := rotate s.e 14 ^^^ rotate s.e 18 ^^^ rotate s.e 41
  let choice := (s.e &&& s.f) ^^^ (~~~s.e &&& s.g)
  let t1 := s.h + s1 + choice + k + w
  let s0 := rotate s.a 28 ^^^ rotate s.a 34 ^^^ rotate s.a 39
  let majority := (s.a &&& s.b) ^^^ (s.a &&& s.c) ^^^ (s.b &&& s.c)
  ⟨t1 + s0 + majority, s.a, s.b, s.c, s.d + t1, s.e, s.f, s.g⟩

/-- **Compress a block** into a state. -/
def compress (s : Words) (block : List UInt64) : Words :=
  let extended := (extend block.toArray).toList
  let t := (roundConstants.zip extended).foldl (fun t kw => round t kw.1 kw.2) s
  ⟨s.a + t.a, s.b + t.b, s.c + t.c, s.d + t.d, s.e + t.e, s.f + t.f, s.g + t.g, s.h + t.h⟩

/-! ## 3. Messages -/

/-- **Cut into pieces** of a length; the bound on their number is never reached. -/
def pieces {α : Type} (length : Nat) : (bound : Nat) → List α → List (List α)
  | 0, _ => []
  | _, [] => []
  | bound + 1, xs => xs.take length :: pieces length bound (xs.drop length)

/-- **A message padded to whole blocks**: a one bit, zeros, and its length in bits. -/
def padded (b : Bytes) : Bytes :=
  b ++ 0x80 :: List.replicate ((239 - b.length % 128) % 128) 0 ++ Bytes.ofNatBE 16 (8 * b.length)

/-- **The blocks of a message**, as words. -/
def blocks (b : Bytes) : List (List UInt64) :=
  let p := padded b
  (pieces 128 (p.length / 128) p).map fun block =>
    (pieces 8 16 block).map fun w => UInt64.ofNat (Bytes.toNatBE w)

/-- **The last state**, from the words started with. -/
def digest (start : Words) (b : Bytes) : Bytes :=
  ((blocks b).foldl compress start).toList.flatMap fun w => Bytes.ofNatBE 8 w.toNat

/-- **The words SHA-512 starts with**, from square roots of the first eight primes. -/
def start512 : Words :=
  .ofList ((primes.take 8).map (rootBits 2))

/-- **The words SHA-384 starts with**, from square roots of the next eight primes. -/
def start384 : Words :=
  .ofList (((primes.drop 8).take 8).map (rootBits 2))

end Sha2

/-- **SHA-512.** -/
def sha512 (b : Bytes) : Bytes :=
  Sha2.digest Sha2.start512 b

/-- **SHA-384**: the first six words. -/
def sha384 (b : Bytes) : Bytes :=
  (Sha2.digest Sha2.start384 b).take 48

end ShardLedger
