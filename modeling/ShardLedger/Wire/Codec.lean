import ShardLedger.Wire.Binary
import ShardLedger.Wire.Text
/-
Values that travel.

A type travels if it says what its values look like as data and which schema these data fit.  Its
binary form, its JSON form and both readers then come from the schema.
-/

set_option autoImplicit false

namespace ShardLedger

open Wire

/-- **A type whose values travel.** -/
class Wired (α : Type) where
  /-- The shape of the values as data. -/
  schema : Schema
  /-- A value as data. -/
  toDatum : α → Datum
  /-- The value of data of that shape. -/
  ofDatum? : Datum → Option α

namespace Wired

variable {α : Type} [Wired α]

/-- **A value can travel**: its data fit the schema, guards included. -/
def Fits (a : α) : Prop :=
  (schema α).Fits (toDatum a)

/-- **The value of a datum** that was read. -/
def ofDatum (d : Datum) : Except Fault α :=
  match ofDatum? d with
  | some a => .ok a
  | none => .error .misfit

/-- **The binary form.** -/
def toBytes (a : α) : Bytes :=
  (schema α).put (toDatum a)

/-- **Read the binary form** from the front of a byte string; whatever follows does no harm. -/
def ofBytes (b : Bytes) : Except Fault α := do
  let (d, _) ← (schema α).take b
  ofDatum d

/-- **The JSON form**, with fields in the order of the schema. -/
def toJson (a : α) : Json :=
  (schema α).write (toDatum a)

/-- **The JSON form as a tree**, with members in order of name. -/
def toTree (a : α) : Json :=
  (toJson a).canonical

/-- **Read a JSON text.** -/
def ofChars (cs : List Char) : Except Fault α := do
  ofDatum (← (schema α).ofChars cs)

/-- **Read a JSON tree.** -/
def ofTree (j : Json) : Except Fault α := do
  ofDatum (← (schema α).ofTree j)

end Wired

/-! ## Plain values -/

instance : Wired Int32 where
  schema := .int .i32
  toDatum i := .int i.toInt
  ofDatum?
    | .int i => some (Int32.ofInt i)
    | _ => none

instance : Wired Int64 where
  schema := .int .i64
  toDatum i := .int i.toInt
  ofDatum?
    | .int i => some (Int64.ofInt i)
    | _ => none

instance : Wired UInt64 where
  schema := .int .u64
  toDatum n := .int n.toNat
  ofDatum?
    | .int i => some (UInt64.ofNat i.toNat)
    | _ => none

instance : Wired Bool where
  schema := .bool
  toDatum b := .bool b
  ofDatum?
    | .bool b => some b
    | _ => none

instance : Wired String where
  schema := .text
  toDatum s := .text s
  ofDatum?
    | .text s => some s
    | _ => none

instance {α : Type} [Wired α] : Wired (Option α) where
  schema := .option (Wired.schema α)
  toDatum
    | none => .absent
    | some a => .present (Wired.toDatum a)
  ofDatum?
    | .absent => some none
    | .present d => (Wired.ofDatum? d).map some
    | _ => none

instance {α : Type} [Wired α] : Wired (List α) where
  schema := .list (Wired.schema α)
  toDatum as := .list (as.map Wired.toDatum)
  ofDatum?
    | .list ds => ds.mapM Wired.ofDatum?
    | _ => none

end ShardLedger
