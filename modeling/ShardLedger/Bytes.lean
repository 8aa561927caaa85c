import ShardLedger.Arithmetic
/-
Byte strings.

Everything that is signed, hashed or sent is a plain list of bytes: a list has the induction that the
codecs are argued with, and the texts that travel are short.  Three views are given of it: the text it
spells in UTF-8, the number it writes in little-endian order, and the big-endian number that hash
functions read.
-/

set_option autoImplicit false

namespace ShardLedger

/-- **Byte strings.** -/
abbrev Bytes := List UInt8

namespace Bytes

/-! ## 1. Text -/

/-- **The UTF-8 bytes of a text.** -/
def ofText (s : String) : Bytes :=
  s.toByteArray.data.toList

/-- **The text that bytes spell**, if they are valid UTF-8. -/
def toText? (b : Bytes) : Option String :=
  String.fromUTF8? ⟨b.toArray⟩

/-! ## 2. Little-endian words -/

/-- **A little-endian word**: the lowest `width` base-256 digits of `n`, lowest first. -/
def ofNatLE : (width : Nat) → (n : Nat) → Bytes
  | 0, _ => []
  | width + 1, n => UInt8.ofNat n :: ofNatLE width (n / 256)

/-- **The number a little-endian byte string writes.** -/
def toNatLE : Bytes → Nat
  | [] => 0
  | b :: bs => b.toNat + 256 * toNatLE bs

@[simp]
theorem length_ofNatLE (width n : Nat) : (ofNatLE width n).length = width := by
  induction width generalizing n with
  | zero => rfl
  | succ w ih => simp [ofNatLE, ih]

/-- Reading a word back gives the number cut down to the word. -/
theorem toNatLE_ofNatLE (width n : Nat) : toNatLE (ofNatLE width n) = n % 256 ^ width := by
  induction width generalizing n with
  | zero => simp [ofNatLE, toNatLE, Nat.mod_one]
  | succ w ih =>
    have h : (UInt8.ofNat n).toNat = n % 256 := by simp
    rw [ofNatLE, toNatLE, ih, h, Nat.pow_succ', Nat.mod_mul]

/-- A byte string is the word of the number it writes: nothing is lost in reading. -/
theorem ofNatLE_toNatLE (b : Bytes) : ofNatLE b.length (toNatLE b) = b := by
  induction b with
  | nil => rfl
  | cons x xs ih =>
    have hx : x.toNat < 256 := x.toNat_lt
    have hq : (x.toNat + 256 * toNatLE xs) / 256 = toNatLE xs := by omega
    have hb : UInt8.ofNat (x.toNat + 256 * toNatLE xs) = x := by
      apply UInt8.toNat_inj.mp
      simp
    simp only [List.length_cons, toNatLE, ofNatLE, hq, ih, hb]

/-! ## 3. Big-endian words -/

/-- **The number a big-endian byte string writes.** -/
def toNatBE (b : Bytes) : Nat :=
  b.foldl (fun n x => n * 256 + x.toNat) 0

/-- **A big-endian word** of `width` bytes. -/
def ofNatBE (width n : Nat) : Bytes :=
  (ofNatLE width n).reverse

end Bytes

end ShardLedger
