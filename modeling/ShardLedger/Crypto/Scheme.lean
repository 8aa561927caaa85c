import ShardLedger.Hex
/-
Keys, signatures, and the scheme that relates them.

The ledger asks a signature scheme two things only: whether thirty-two bytes are a point, so that they
may serve as a public key, and whether a signature is one of a message under a key.  Everything about
ledgers, codecs and clients is stated for any scheme; the one in use is given elsewhere.
-/

set_option autoImplicit false

namespace ShardLedger

/-- **A public key**, as its bytes. -/
structure PublicKey where
  bytes : Bytes
deriving DecidableEq

/-- **A signature**, as its bytes.  Any bytes will do; bytes of the wrong number verify nothing. -/
structure Signature where
  bytes : Bytes
deriving DecidableEq

/-- **A secret key**: the thirty-two bytes of its seed. -/
structure SecretKey where
  seed : Bytes
  length_eq : seed.length = 32
deriving DecidableEq

/-- **Why data were refused as a key.** -/
inductive KeyError where
  | invalidSecretKey
  | invalidPublicKey
deriving DecidableEq, Repr

/-- **The message of a refusal.** -/
def KeyError.message : KeyError → String
  | .invalidSecretKey => "invalid secret key encoding"
  | .invalidPublicKey => "invalid public key encoding or not a valid Ed25519 point"

/-- **A signature scheme.** -/
class SignatureScheme where
  /-- These bytes may serve as a public key. -/
  isPoint : Bytes → Bool
  /-- This is a signature of the message under the key. -/
  verify : (key : PublicKey) → (message : Bytes) → (signature : Signature) → Bool
  /-- The public half of a secret key. -/
  publicKey : SecretKey → PublicKey
  /-- The signature of a message. -/
  sign : SecretKey → (message : Bytes) → Signature

/-- **The public key of bytes**, refused unless they are a point and as many as a key has. -/
def PublicKey.ofBytes? [SignatureScheme] (b : Bytes) : Option PublicKey :=
  if b.length = 32 ∧ SignatureScheme.isPoint b then some ⟨b⟩ else none

/-- **A key verifies a signature.** -/
def PublicKey.verify [SignatureScheme] (key : PublicKey) (message : Bytes)
    (signature : Signature) : Bool :=
  SignatureScheme.verify key message signature

/-- **The secret key of a seed.** -/
def SecretKey.ofSeed? (b : Bytes) : Option SecretKey :=
  if h : b.length = 32 then some ⟨b, h⟩ else none

/-- **The public half** of a secret key. -/
def SecretKey.publicKey [SignatureScheme] (key : SecretKey) : PublicKey :=
  SignatureScheme.publicKey key

/-- **Sign a message.** -/
def SecretKey.sign [SignatureScheme] (key : SecretKey) (message : Bytes) : Signature :=
  SignatureScheme.sign key message

/-- **Whoever can sign**: from a message to a signature. -/
abbrev Signer := Bytes → Signature

end ShardLedger
