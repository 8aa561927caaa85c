import ShardLedger.Bytes
import ShardLedger.Json.Raw
import ShardLedger.AccountId
import ShardLedger.Crypto.Scheme
/-
The wire model: what travels, and the schemas that describe it.

A message is described once, by a schema: integers of a width, flags, texts, byte strings, options,
lists, records with named fields, and choices among named variants.  What it says is a datum, a value
of the same shape without names.  The binary and the JSON form are each given once, for all schemas,
so that what holds of a form holds of every message.

A schema may carry a guard, a test that a datum of the right shape can still fail.  Two guards occur:
the components of an account identifier are not negative, and the bytes of a public key are a point.
-/

set_option autoImplicit false

namespace ShardLedger

namespace Wire

/-- **Why data was refused**: it does not have the form wanted, or it fails a guard. -/
inductive Fault where
  /-- The data does not have the form wanted. -/
  | misfit
  /-- A component of an account identifier is negative. -/
  | malformed (m : Malformed)
  /-- The bytes of a public key are not a point. -/
  | invalidKey
deriving DecidableEq

/-- **The message of a fault.** -/
def Fault.message : Fault → String
  | .misfit => "data does not have the form wanted"
  | .malformed m => m.message
  | .invalidKey => KeyError.invalidPublicKey.message

/-- **The width of an integer.** -/
inductive Width where
  | i32
  | i64
  | u64
deriving DecidableEq, Repr

namespace Width

/-- **The number of bytes** of an integer. -/
def bytes : Width → Nat
  | .i32 => 4
  | .i64 => 8
  | .u64 => 8

/-- **The integers of a width.** -/
def Holds : Width → Int → Prop
  | .i32, i => -2 ^ 31 ≤ i ∧ i < 2 ^ 31
  | .i64, i => -2 ^ 63 ≤ i ∧ i < 2 ^ 63
  | .u64, i => 0 ≤ i ∧ i < 2 ^ 64

instance (w : Width) (i : Int) : Decidable (w.Holds i) :=
  match w with
  | .i32 => inferInstanceAs (Decidable (_ ∧ _))
  | .i64 => inferInstanceAs (Decidable (_ ∧ _))
  | .u64 => inferInstanceAs (Decidable (_ ∧ _))

/-- **The integer of a word**: negative integers are those whose top bit is set. -/
def ofWord (w : Width) (n : Nat) : Int :=
  match w with
  | .i32 => if n < 2 ^ 31 then n else (n : Int) - 2 ^ 32
  | .i64 => if n < 2 ^ 63 then n else (n : Int) - 2 ^ 64
  | .u64 => n

/-- **The word of an integer.** -/
def toWord (w : Width) (i : Int) : Nat :=
  (i % 256 ^ w.bytes).toNat

end Width

/-- **What a message says**, without names. -/
inductive Datum where
  | int (i : Int)
  | bool (b : Bool)
  | text (s : String)
  | bytes (b : Bytes)
  | absent
  | present (d : Datum)
  | list (ds : List Datum)
  | record (ds : List Datum)
  | choice (index : Nat) (d : Datum)
  | json (j : Json)

/-- **When a record field may be left out** in a JSON object. -/
inductive Presence where
  /-- It is written always; a reader misses it unless it is an option. -/
  | always
  /-- It is an option, and left out when absent. -/
  | whenPresent
  /-- It is a free JSON value, and null when left out. -/
  | orNull
deriving DecidableEq, Repr

/-- **How the content of a variant is written** in JSON. -/
inductive Form where
  /-- No content: the bare name. -/
  | unit
  /-- The content of the one value inside. -/
  | wrapped
  /-- The fields of a record of its own. -/
  | fields
deriving DecidableEq, Repr

mutual

/-- **A schema**: the shape of a message. -/
inductive Schema where
  | int (w : Width)
  | bool
  | text
  /-- Bytes as hexadecimal text, of a given number if one is given. -/
  | bytes (length : Option Nat)
  | option (s : Schema)
  | list (s : Schema)
  | record (fs : Fields)
  | choice (vs : Variants)
  | guarded (guard : Datum → Option Fault) (s : Schema)
  /-- A free JSON value; it has no binary form. -/
  | json

/-- **The fields of a record**, in the order they are written. -/
inductive Fields where
  | nil
  | cons (name : String) (presence : Presence) (s : Schema) (rest : Fields)

/-- **The variants of a choice**, counted from zero. -/
inductive Variants where
  | nil
  | cons (name : String) (form : Form) (s : Schema) (rest : Variants)

end

/-- **Fields that are always written.** -/
def Fields.ofList : List (String × Schema) → Fields
  | [] => .nil
  | (name, s) :: fs => .cons name .always s (ofList fs)

/-- **A record of fields that are always written.** -/
def Schema.recordOf (fs : List (String × Schema)) : Schema :=
  .record (Fields.ofList fs)

/-- **Variants given as a list.** -/
def Variants.ofList : List (String × Form × Schema) → Variants
  | [] => .nil
  | (name, form, s) :: vs => .cons name form s (ofList vs)

/-- **A choice among variants.** -/
def Schema.choiceOf (vs : List (String × Form × Schema)) : Schema :=
  .choice (Variants.ofList vs)

/-- **The number of variants.** -/
def Variants.size : Variants → Nat
  | .nil => 0
  | .cons _ _ _ rest => rest.size + 1

/-! ## Data that fit a schema -/

mutual

/-- **A datum fits a schema**: it has its shape, its integers are in range, and it passes every
guard. -/
def Schema.Fits : Schema → Datum → Prop
  | .int w, .int i => w.Holds i
  | .bool, .bool _ => True
  | .text, .text s => s.utf8ByteSize < 2 ^ 64
  | .bytes length, .bytes b => (∀ n ∈ length, b.length = n) ∧ 2 * b.length < 2 ^ 64
  | .option _, .absent => True
  | .option s, .present d => s.Fits d
  | .list s, .list ds => ds.length < 2 ^ 64 ∧ ∀ d ∈ ds, s.Fits d
  | .record fs, .record ds => fs.Fit ds
  | .choice vs, .choice i d => vs.Fit i d
  | .guarded guard s, d => s.Fits d ∧ guard d = none
  | .json, .json _ => True
  | _, _ => False

/-- **The values of a record fit its fields**, one by one. -/
def Fields.Fit : Fields → List Datum → Prop
  | .nil, [] => True
  | .cons _ _ s rest, d :: ds => s.Fits d ∧ rest.Fit ds
  | _, _ => False

/-- **The content of a variant fits** it. -/
def Variants.Fit : Variants → Nat → Datum → Prop
  | .nil, _, _ => False
  | .cons _ _ s _, 0, d => s.Fits d
  | .cons _ _ _ rest, i + 1, d => rest.Fit i d

end

end Wire

end ShardLedger
