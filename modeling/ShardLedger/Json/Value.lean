import ShardLedger.Binary64.Shortest
import ShardLedger.Text.Decimal
/-
JSON values and their text.

A number is kept as the word it fits, an unsigned or a negative signed 64-bit integer, and otherwise
as a double.  An object is a list of members in the order they are written.  The canonical form of a
value has the members of every object in ascending order of name, each name once, the last value
given to it.

The text of a value has no blanks.  Inside strings the two characters that would end or bend the
string are escaped, and so are the controls below the blank; a line break is one of these, so the
text of a value is always a single line.
-/

set_option autoImplicit false

namespace ShardLedger

namespace Json

/-- **A JSON number**: an unsigned word, a negative word, or a double. -/
inductive Number where
  | natural (n : UInt64)
  | negative (i : Int64)
  | real (x : Binary64)
deriving DecidableEq, Repr

/-- **The number of an integer**: a word if it fits one, and otherwise nothing. -/
def Number.ofInt? (i : Int) : Option Number :=
  if 0 ≤ i then (if i < UInt64.size then some (.natural (UInt64.ofNat i.toNat)) else none)
  else if Int64.minValue.toInt ≤ i then some (.negative (Int64.ofInt i)) else none

/-- **The integer of a number**, if it was kept as a word. -/
def Number.toInt? : Number → Option Int
  | .natural n => some n.toNat
  | .negative i => some i.toInt
  | .real _ => none

end Json

/-- **A JSON value.** -/
inductive Json where
  | null
  | bool (b : Bool)
  | number (n : Json.Number)
  | string (s : String)
  | array (items : List Json)
  | object (members : List (String × Json))
deriving Repr

namespace Json

instance : Inhabited Json := ⟨.null⟩

/-- **A natural number** within an unsigned word, as a value. -/
def natural (n : UInt64) : Json := .number (.natural n)

/-- **An integer**, as a value; one that fits no word becomes null. -/
def integer (i : Int) : Json :=
  match Number.ofInt? i with
  | some n => .number n
  | none => .null

/-! ## 1. Members -/

/-- **The value of a member**, for objects. -/
def get? (name : String) : Json → Option Json
  | .object members => (members.find? fun m => m.1 = name).map Prod.snd
  | _ => none

/-- **The text of a string**, for strings. -/
def string? : Json → Option String
  | .string s => some s
  | _ => none

/-- **The unsigned word of a number**, if it was kept as one. -/
def natural? : Json → Option UInt64
  | .number (.natural n) => some n
  | _ => none

/-- **Put a member in its place** by name, replacing the value of the same name. -/
def putMember (name : String) (value : Json) : List (String × Json) → List (String × Json)
  | [] => [(name, value)]
  | m :: ms =>
    if name < m.1 then (name, value) :: m :: ms
    else if name = m.1 then (name, value) :: ms
    else m :: putMember name value ms

/-- **Members in order of name**, the last value of each name. -/
def sortMembers (members : List (String × Json)) : List (String × Json) :=
  members.foldl (fun ms m => putMember m.1 m.2 ms) []

mutual

/-- **The canonical form**: the members of every object in order of name. -/
def canonical : Json → Json
  | .array items => .array (canonicalItems items)
  | .object members => .object (sortMembers (canonicalMembers members))
  | .null => .null
  | .bool b => .bool b
  | .number n => .number n
  | .string s => .string s

def canonicalItems : List Json → List Json
  | [] => []
  | j :: js => canonical j :: canonicalItems js

def canonicalMembers : List (String × Json) → List (String × Json)
  | [] => []
  | (name, j) :: ms => (name, canonical j) :: canonicalMembers ms

end

/-! ## 2. Text -/

/-- **The spelling of a character** inside a JSON string. -/
def escape (c : Char) : List Char :=
  match c with
  | '"' => ['\\', '"']
  | '\\' => ['\\', '\\']
  | '\n' => ['\\', 'n']
  | '\r' => ['\\', 'r']
  | '\t' => ['\\', 't']
  | '\x08' => ['\\', 'b']
  | '\x0c' => ['\\', 'f']
  | c =>
    if c.toNat < 32 then
      ['\\', 'u', '0', '0', Nat.digitChar (c.toNat / 16), Nat.digitChar (c.toNat % 16)]
    else [c]

/-- **The text of a string**, quotes included. -/
def stringChars (s : String) : List Char :=
  '"' :: s.toList.flatMap escape ++ ['"']

/-- **The text of a number.** -/
def Number.chars : Number → List Char
  | .natural n => Text.digits n.toNat
  | .negative i => Text.integer i.toInt
  | .real x => x.chars

mutual

/-- **The text of a value** as characters. -/
def chars : Json → List Char
  | .null => "null".toList
  | .bool true => "true".toList
  | .bool false => "false".toList
  | .number n => n.chars
  | .string s => stringChars s
  | .array [] => ['[', ']']
  | .array (j :: js) => '[' :: chars j ++ itemsChars js
  | .object [] => ['\x7b', '\x7d']
  | .object ((name, j) :: ms) => '\x7b' :: stringChars name ++ ':' :: chars j ++ membersChars ms

/-- The items after the first, and the closing bracket. -/
def itemsChars : List Json → List Char
  | [] => [']']
  | j :: js => ',' :: chars j ++ itemsChars js

/-- The members after the first, and the closing brace. -/
def membersChars : List (String × Json) → List Char
  | [] => ['\x7d']
  | (name, j) :: ms => ',' :: stringChars name ++ ':' :: chars j ++ membersChars ms

end

/-- **The text of a value.** -/
def text (j : Json) : String :=
  String.ofList j.chars

end Json

end ShardLedger
