import ShardLedger.Crypto.Edwards
import ShardLedger.Crypto.Scheme
import ShardLedger.Crypto.Sha2
/-
The signature scheme Ed25519.

A signature is a point and a number below the order of the base point.  It is checked without
clearing the cofactor: the point that the equation asks for is written out and its bytes are compared
with those of the signature.  Keys of small order are allowed.
-/

set_option autoImplicit false

namespace ShardLedger

namespace Ed25519

open Edwards

/-- **The number of a hash**, modulo the order of the base point. -/
def challenge (parts : Bytes) : Nat :=
  Bytes.toNatLE (sha512 parts) % order

/-- **The secret number and the nonce prefix** of a seed.  The number is a multiple of eight with bit
254 as its highest. -/
def expand (seed : Bytes) : Nat × Bytes :=
  let h := sha512 seed
  let n := Bytes.toNatLE (h.take 32)
  (n % 2 ^ 254 / 8 * 8 + 2 ^ 254, h.drop 32)

/-- **The public point** of a secret number, as bytes. -/
def publicBytes (n : Nat) : Bytes :=
  (Point.base.times n).toBytes

/-- **Sign a message** with a seed. -/
def sign (seed message : Bytes) : Bytes :=
  let (n, nonce) := expand seed
  let r := challenge (nonce ++ message)
  let point := (Point.base.times r).toBytes
  let k := challenge (point ++ publicBytes n ++ message)
  point ++ Bytes.ofNatLE 32 ((r + k * n) % order)

/-- **Check a signature.** -/
def verify (key message signature : Bytes) : Bool :=
  match Point.ofBytes? key with
  | none => false
  | some a =>
    let r := signature.take 32
    let s := Bytes.toNatLE (signature.drop 32)
    let k := challenge (r ++ key ++ message)
    key.length = 32 && signature.length = 64 && s < order
      && ((Point.base.times s).plus (a.negate.times k)).toBytes = r

end Ed25519

/-- **The scheme in use.** -/
instance : SignatureScheme where
  isPoint b := (Edwards.Point.ofBytes? b).isSome
  verify key message signature := Ed25519.verify key.bytes message signature.bytes
  publicKey key := ⟨Ed25519.publicBytes (Ed25519.expand key.seed).1⟩
  sign key message := ⟨Ed25519.sign key.seed message⟩

end ShardLedger
