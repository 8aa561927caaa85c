import ShardLedger.Crypto.Scheme
/-
Text forms of keys and signatures.

A key is written as hexadecimal text of a fixed header followed by its thirty-two bytes; the header
tells a secret key from a public one.  Reading also takes the thirty-two bytes alone.  Messages never
repeat key material: the short forms show the public half or the first eight bytes.
-/

set_option autoImplicit false

namespace ShardLedger

/-- **The header of a secret key.** -/
def SecretKey.header : Bytes :=
  [0x30, 0x2e, 0x02, 0x01, 0x00, 0x30, 0x05, 0x06, 0x03, 0x2b, 0x65, 0x70, 0x04, 0x22, 0x04, 0x20]

/-- **The header of a public key.** -/
def PublicKey.header : Bytes :=
  [0x30, 0x2a, 0x30, 0x05, 0x06, 0x03, 0x2b, 0x65, 0x70, 0x03, 0x21, 0x00]

/-- **The key bytes** of a text, which are all of its bytes or those behind the header. -/
def keyBytes? (header : Bytes) (s : String) : Option Bytes := do
  let b ← Hex.decode s
  if b.length = 32 then some b
  else if b.length = header.length + 32 ∧ b.take header.length = header then
    some (b.drop header.length)
  else none

namespace SecretKey

/-- **The text form**: header and seed. -/
def text (key : SecretKey) : String :=
  Hex.encode (header ++ key.seed)

/-- **Read the text form** or the bare seed. -/
def parse (s : String) : Except KeyError SecretKey :=
  match (keyBytes? header s).bind ofSeed? with
  | some key => .ok key
  | none => .error .invalidSecretKey

end SecretKey

namespace PublicKey

/-- **The text form**: header and point. -/
def text (key : PublicKey) : String :=
  Hex.encode (header ++ key.bytes)

/-- **Read the text form** or the bare point. -/
def parse [SignatureScheme] (s : String) : Except KeyError PublicKey :=
  match (keyBytes? header s).bind ofBytes? with
  | some key => .ok key
  | none => .error .invalidPublicKey

/-- **The short form**: the first eight bytes. -/
def shortText (key : PublicKey) : String :=
  "PublicKey(" ++ Hex.encode (key.bytes.take 8) ++ ")"

end PublicKey

/-- **The short form** of a secret key shows its public half. -/
def SecretKey.shortText [SignatureScheme] (key : SecretKey) : String :=
  "SecretKey(pub=" ++ key.publicKey.text ++ ")"

namespace Signature

/-- **The text form** of a signature. -/
def text (s : Signature) : String :=
  Hex.encode s.bytes

/-- **The short form**: the first eight bytes. -/
def shortText (s : Signature) : String :=
  "Signature(" ++ Hex.encode (s.bytes.take 8) ++ "...)"

end Signature

end ShardLedger
