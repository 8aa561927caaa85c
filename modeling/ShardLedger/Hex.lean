import ShardLedger.Bytes
/-
Hexadecimal text of byte strings.

Keys, signatures, hashes and signed bodies travel as hexadecimal text.  Writing uses lower-case
digits; reading takes either case, and refuses an odd number of digits and any other character.
-/

set_option autoImplicit false

namespace ShardLedger

namespace Hex

/-- **The digit of a value below sixteen**, in lower case. -/
def digit (n : Nat) : Char :=
  if n < 10 then Char.ofNat (48 + n) else Char.ofNat (87 + n)

/-- **The value of a digit** of either case. -/
def value? (c : Char) : Option Nat :=
  if '0' ≤ c ∧ c ≤ '9' then some (c.toNat - 48)
  else if 'a' ≤ c ∧ c ≤ 'f' then some (c.toNat - 87)
  else if 'A' ≤ c ∧ c ≤ 'F' then some (c.toNat - 55)
  else none

/-- **The two digits of each byte**, high digit first. -/
def encodeChars : Bytes → List Char
  | [] => []
  | b :: bs => digit (b.toNat / 16) :: digit (b.toNat % 16) :: encodeChars bs

/-- **The bytes that pairs of digits write.** -/
def decodeChars : List Char → Option Bytes
  | [] => some []
  | h :: l :: cs => do
    let high ← value? h
    let low ← value? l
    let bs ← decodeChars cs
    return UInt8.ofNat (16 * high + low) :: bs
  | [_] => none

/-- **Hexadecimal text of bytes.** -/
def encode (b : Bytes) : String :=
  String.ofList (encodeChars b)

/-- **The bytes of a hexadecimal text.** -/
def decode (s : String) : Option Bytes :=
  decodeChars s.toList

/-! ## Reading what was written -/

theorem value?_digit {n : Nat} (h : n < 16) : value? (digit n) = some n := by
  revert n
  decide

theorem decodeChars_encodeChars (b : Bytes) : decodeChars (encodeChars b) = some b := by
  induction b with
  | nil => rfl
  | cons x xs ih =>
    have hx : x.toNat < 256 := x.toNat_lt
    have hv : UInt8.ofNat (16 * (x.toNat / 16) + x.toNat % 16) = x := by
      apply UInt8.toNat_inj.mp
      simp only [UInt8.toNat_ofNat']
      omega
    simp only [encodeChars, decodeChars, value?_digit (show x.toNat / 16 < 16 by omega),
      value?_digit (show x.toNat % 16 < 16 by omega), ih, hv, bind, Option.bind, pure]

theorem decode_encode (b : Bytes) : decode (encode b) = some b := by
  simp [decode, encode, decodeChars_encodeChars]

end Hex

end ShardLedger
