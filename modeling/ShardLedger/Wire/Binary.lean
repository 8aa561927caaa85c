import ShardLedger.Hex
import ShardLedger.Wire.Schema
/-
The binary form of messages.

Integers are little-endian words of their width.  A flag is one byte, zero or one, and so is the
mark before an option.  A text, a list and the hexadecimal text of a byte string have their length
before them as an unsigned 64-bit word, and a variant has its place as an unsigned 32-bit word.  The
fields of a record follow each other without any mark.

A reader takes what it needs from the front and leaves the rest, so bytes after a message do no harm.
-/

set_option autoImplicit false

namespace ShardLedger

namespace Wire

/-! ## 1. Writing -/

/-- **A length** as it stands before what it counts. -/
def putLength (n : Nat) : Bytes :=
  Bytes.ofNatLE 8 n

/-- **A counted byte string.** -/
def putCounted (b : Bytes) : Bytes :=
  putLength b.length ++ b

mutual

/-- **The binary form of a datum** under its schema. -/
def Schema.put : Schema → Datum → Bytes
  | .int w, .int i => Bytes.ofNatLE w.bytes (w.toWord i)
  | .bool, .bool b => [if b then 1 else 0]
  | .text, .text s => putCounted (Bytes.ofText s)
  | .bytes _, .bytes b => putCounted (Bytes.ofText (Hex.encode b))
  | .option _, .absent => [0]
  | .option s, .present d => 1 :: s.put d
  | .list s, .list ds => putLength ds.length ++ ds.flatMap s.put
  | .record fs, .record ds => fs.put ds
  | .choice vs, .choice i d => Bytes.ofNatLE 4 i ++ vs.put i d
  | .guarded _ s, d => s.put d
  | _, _ => []

/-- **The binary form of the values of a record.** -/
def Fields.put : Fields → List Datum → Bytes
  | .cons _ _ s rest, d :: ds => s.put d ++ rest.put ds
  | _, _ => []

/-- **The binary form of the content of a variant.** -/
def Variants.put : Variants → Nat → Datum → Bytes
  | .nil, _, _ => []
  | .cons _ _ s _, 0, d => s.put d
  | .cons _ _ _ rest, i + 1, d => rest.put i d

end

/-! ## 2. Reading -/

/-- **A reader** takes a value from the front of a byte string, or finds a fault. -/
abbrev Reader (α : Type) := Bytes → Except Fault (α × Bytes)

/-- **Take a number of bytes.** -/
def takeBytes (n : Nat) : Reader Bytes := fun b =>
  if n ≤ b.length then .ok (b.take n, b.drop n) else .error .misfit

/-- **Take an unsigned word** of so many bytes. -/
def takeWord (width : Nat) : Reader Nat := fun b => do
  let (w, rest) ← takeBytes width b
  return (Bytes.toNatLE w, rest)

/-- **Take a counted text.** -/
def takeText : Reader String := fun b => do
  let (n, rest) ← takeWord 8 b
  let (w, rest) ← takeBytes n rest
  match Bytes.toText? w with
  | some s => return (s, rest)
  | none => .error .misfit

/-- **Take a byte that is zero or one.** -/
def takeFlag : Reader Bool
  | 0 :: rest => .ok (false, rest)
  | 1 :: rest => .ok (true, rest)
  | _ => .error .misfit

/-- **Take so many values**, one after the other. -/
def takeMany {α : Type} (one : Reader α) : Nat → Reader (List α)
  | 0, b => .ok ([], b)
  | n + 1, b => do
    let (a, rest) ← one b
    let (as, rest) ← takeMany one n rest
    return (a :: as, rest)

mutual

/-- **Read a datum** of a schema. -/
def Schema.take : Schema → Reader Datum
  | .int w, b => do
    let (n, rest) ← takeWord w.bytes b
    return (.int (w.ofWord n), rest)
  | .bool, b => do
    let (f, rest) ← takeFlag b
    return (.bool f, rest)
  | .text, b => do
    let (s, rest) ← takeText b
    return (.text s, rest)
  | .bytes length, b => do
    let (s, rest) ← takeText b
    match Hex.decode s with
    | some bs =>
      if length.all (· = bs.length) then return (.bytes bs, rest) else .error .misfit
    | none => .error .misfit
  | .option s, b => do
    let (f, rest) ← takeFlag b
    if f then
      let (d, rest) ← s.take rest
      return (.present d, rest)
    else return (.absent, rest)
  | .list s, b => do
    let (n, rest) ← takeWord 8 b
    let (ds, rest) ← takeMany s.take n rest
    return (.list ds, rest)
  | .record fs, b => do
    let (ds, rest) ← fs.take b
    return (.record ds, rest)
  | .choice vs, b => do
    let (i, rest) ← takeWord 4 b
    let (d, rest) ← vs.take i rest
    return (.choice i d, rest)
  | .guarded guard s, b => do
    let (d, rest) ← s.take b
    match guard d with
    | none => return (d, rest)
    | some fault => .error fault
  | .json, _ => .error .misfit

/-- **Read the values of a record.** -/
def Fields.take : Fields → Reader (List Datum)
  | .nil, b => .ok ([], b)
  | .cons _ _ s rest, b => do
    let (d, b) ← s.take b
    let (ds, b) ← rest.take b
    return (d :: ds, b)

/-- **Read the content of a variant.** -/
def Variants.take : Variants → Nat → Reader Datum
  | .nil, _, _ => .error .misfit
  | .cons _ _ s _, 0, b => s.take b
  | .cons _ _ _ rest, i + 1, b => rest.take i b

end

end Wire

end ShardLedger
