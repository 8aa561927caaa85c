import ShardLedger.Wire.Schema
/-
The JSON form of messages.

A record is an object with its fields in the order of the schema, a choice is an object with one
member named for the variant, or the bare name where the variant has no content, and bytes are
hexadecimal text.

Reading is more liberal than writing: a record may come as an array of its fields, members may come
in any order, and members nobody asked for are skipped.  What is read may come straight from a text or
from a value that was parsed before.  The two differ where a text is still being scanned: its members
are met in the order they are written, one may be repeated, its nesting is bounded, and the rest of a
choice is looked at only after its content.
-/

set_option autoImplicit false

namespace ShardLedger

namespace Wire

open Json (Raw)

/-! ## 1. Writing -/

mutual

/-- **The JSON form of a datum** under its schema. -/
def Schema.write : Schema → Datum → Json
  | .int _, .int i => Json.integer i
  | .bool, .bool b => .bool b
  | .text, .text s => .string s
  | .bytes _, .bytes b => .string (Hex.encode b)
  | .option _, .absent => .null
  | .option s, .present d => s.write d
  | .list s, .list ds => .array (ds.map s.write)
  | .record fs, .record ds => .object (fs.write ds)
  | .choice vs, .choice i d => vs.write i d
  | .guarded _ s, d => s.write d
  | .json, .json j => j
  | _, _ => .null

/-- **The members of a record.** -/
def Fields.write : Fields → List Datum → List (String × Json)
  | .cons _ .whenPresent _ rest, .absent :: ds => rest.write ds
  | .cons name _ s rest, d :: ds => (name, s.write d) :: rest.write ds
  | _, _ => []

/-- **The JSON form of a variant.** -/
def Variants.write : Variants → Nat → Datum → Json
  | .nil, _, _ => .null
  | .cons name .unit _ _, 0, _ => .string name
  | .cons name _ s _, 0, d => .object [(name, s.write d)]
  | .cons _ _ _ rest, i + 1, d => rest.write i d

end

/-! ## 2. Reading -/

/-- **Where a value is read from**: a text, with room for so many levels of nesting, or a tree that
was parsed before. -/
inductive Origin where
  | text (room : Nat)
  | tree

namespace Origin

/-- **The origin of what stands inside** an array or an object. -/
def inside : Origin → Except Fault Origin
  | .text 0 => .error .misfit
  | .text (room + 1) => .ok (.text room)
  | .tree => .ok .tree

/-- **A free value** at an origin. -/
def value? : Origin → Raw → Option Json
  | .text room, v => v.toJson? room
  | .tree, v => v.toJson? v.depth

/-- **A text is met while it is scanned.** -/
def isText : Origin → Bool
  | .text _ => true
  | .tree => false

end Origin

/-- **The integer of a raw number** in the range of a width. -/
def readInt (w : Width) : Raw → Except Fault Datum
  | .number (some n) =>
    match n.toInt? with
    | some i => if w.Holds i then .ok (.int i) else .error .misfit
    | none => .error .misfit
  | _ => .error .misfit

/-- **The bytes of a raw string** of hexadecimal digits. -/
def readBytes (length : Option Nat) : Raw → Except Fault Datum
  | .string (some s) =>
    match Hex.decode s with
    | some b => if length.all (· = b.length) then .ok (.bytes b) else .error .misfit
    | none => .error .misfit
  | _ => .error .misfit

/-- **Values of named fields**, in the order they were found. -/
abbrev Found := List (String × Datum)

/-- **Find the value of a field.** -/
def Found.get? (found : Found) (name : String) : Option Datum :=
  (found.find? fun e => e.1 = name).map Prod.snd

/-- **Go through the members of an object.**  A member that is a field is read, unless the field was
found before; any other is skipped, if it can be. -/
def readMembers (readField : String → Raw → Option (Except Fault Datum)) :
    List (Option String × Raw) → Found → Except Fault Found
  | [], found => .ok found
  | (none, _) :: _, _ => .error .misfit
  | (some name, v) :: ms, found =>
    match readField name v with
    | none => if v.isWhole then readMembers readField ms found else .error .misfit
    | some read =>
      if (found.get? name).isSome then .error .misfit
      else do
        let d ← read
        readMembers readField ms ((name, d) :: found)

/-- **What stands in for a field** that an object leaves out. -/
def Schema.whenMissing : Schema → Presence → Except Fault Datum
  | _, .orNull => .ok (.json .null)
  | .option _, _ => .ok .absent
  | _, _ => .error .misfit

/-- **The values of all fields**, those found and those left out. -/
def Fields.complete : Fields → Found → Except Fault (List Datum)
  | .nil, _ => .ok []
  | .cons name presence s rest, found => do
    let d ← match found.get? name with
      | some d => Except.ok d
      | none => s.whenMissing presence
    return d :: (← rest.complete found)

/-- **The one entry of an object**, if its text or tree has exactly one.  Of a text the first entry is
given, and its being the only one is checked by `closes` when its content has been read. -/
def entry (o : Origin) : List (Option String × Raw) → Except Fault (String × Raw)
  | (some name, v) :: rest => if o.isText ∨ rest.isEmpty then .ok (name, v) else .error .misfit
  | _ => .error .misfit

/-- **Nothing follows the one entry.** -/
def closes : List (Option String × Raw) → Except Fault Unit
  | [_] => .ok ()
  | _ => .error .misfit

/-- **The content of a variant with fields may stand here.**  A tree must have an object. -/
def isContent (o : Origin) : Raw → Bool
  | .object _ => true
  | _ => o.isText

mutual

/-- **Read a datum** of a schema. -/
def Schema.read : Schema → Origin → Raw → Except Fault Datum
  | .int w, _, v => readInt w v
  | .bool, _, .bool b => .ok (.bool b)
  | .text, _, .string (some s) => .ok (.text s)
  | .bytes length, _, v => readBytes length v
  | .option _, _, .null => .ok .absent
  | .option s, o, v => do
    let d ← s.read o v
    return .present d
  | .list s, o, .array items => do
    let o ← o.inside
    let ds ← items.mapM (s.read o)
    return .list ds
  | .record fs, o, .array items => do
    let o ← o.inside
    let ds ← fs.readItems o items
    return .record ds
  | .record fs, o, .object members => do
    let o ← o.inside
    let found ← readMembers (fs.readField o) members []
    let ds ← fs.complete found
    return .record ds
  | .choice vs, _, .string (some name) => vs.readName name 0
  | .choice vs, o, .object members => do
    let o ← o.inside
    let (name, v) ← entry o members
    let d ← vs.readVariant o name v 0
    closes members
    return d
  | .guarded guard s, o, v => do
    let d ← s.read o v
    match guard d with
    | none => return d
    | some fault => .error fault
  | .json, o, v =>
    match o.value? v with
    | some j => .ok (.json j)
    | none => .error .misfit
  | _, _, _ => .error .misfit

/-- **Read a member that is a field**; nothing if it is none. -/
def Fields.readField : Fields → Origin → String → Raw → Option (Except Fault Datum)
  | .nil, _, _, _ => none
  | .cons field _ s rest, o, name, v =>
    if name = field then some (s.read o v) else rest.readField o name v

/-- **Read the fields of a record** from the items of an array. -/
def Fields.readItems : Fields → Origin → List Raw → Except Fault (List Datum)
  | .nil, _, [] => .ok []
  | .nil, _, _ :: _ => .error .misfit
  | .cons _ .orNull _ rest, o, [] => do
    return .json .null :: (← rest.readItems o [])
  | .cons _ _ _ _, _, [] => .error .misfit
  | .cons _ _ s rest, o, v :: vs => do
    let d ← s.read o v
    return d :: (← rest.readItems o vs)

/-- **Read a variant given by its bare name**; it must be one without content. -/
def Variants.readName : Variants → String → Nat → Except Fault Datum
  | .nil, _, _ => .error .misfit
  | .cons variant form _ rest, name, i =>
    if name = variant then
      match form with
      | .unit => .ok (.choice i (.record []))
      | _ => .error .misfit
    else rest.readName name (i + 1)

/-- **Read a variant with its content.** -/
def Variants.readVariant : Variants → Origin → String → Raw → Nat → Except Fault Datum
  | .nil, _, _, _, _ => .error .misfit
  | .cons variant form s rest, o, name, v, i =>
    if name = variant then
      match form with
      | .unit =>
        match v with
        | .null => .ok (.choice i (.record []))
        | _ => .error .misfit
      | .wrapped => do
        let d ← s.read o v
        return .choice i d
      | .fields =>
        if isContent o v then do
          let d ← s.read o v
          return .choice i d
        else .error .misfit
    else rest.readVariant o name v (i + 1)

end

/-! ## 3. Texts and trees -/

/-- **Read a text** as one datum with nothing but blanks around it. -/
def Schema.ofChars (s : Schema) (cs : List Char) : Except Fault Datum := do
  let (v, ends) := Raw.ofChars cs
  let d ← s.read (.text Raw.maxDepth) v
  if ends then return d else .error .misfit

/-- **Read a tree.** -/
def Schema.ofTree (s : Schema) (j : Json) : Except Fault Datum :=
  s.read .tree (Raw.ofJson j.canonical)

end Wire

end ShardLedger
