import ShardLedger.Hex
import ShardLedger.Json.Value
/-
Reading JSON text, as far as it goes.

Whoever decodes a text meets its faults one after another, and the first one decides the answer: an
identifier refused early hides a syntax error that comes late.  So reading does not stop at a fault
but marks the place.  The result is a raw value: members in the order of the text with repetitions
kept, and a `broken` value where the text ceases to be JSON, after which nothing follows.

Three faults are no faults of syntax to someone who only skips the value: a string that escapes half
of a surrogate pair, a number beyond the range of doubles, and nesting too deep.  The first two are
marked by an absent content, the third is for the decoder to count.
-/

set_option autoImplicit false

namespace ShardLedger

namespace Json

/-- **A raw value**: what a text says up to its first fault of syntax. -/
inductive Raw where
  /-- Here the text ceases to be JSON. -/
  | broken
  | null
  | bool (b : Bool)
  /-- A number; absent if it is beyond the range of doubles. -/
  | number (n : Option Number)
  /-- A string; absent if it escapes half of a surrogate pair. -/
  | string (s : Option String)
  | array (items : List Raw)
  | object (members : List (Option String × Raw))
deriving Repr

namespace Raw

/-! ## 1. Strings -/

/-- **The code unit of four hexadecimal digits.** -/
def unit? (a b c d : Char) : Option Nat := do
  return ((← Hex.value? a) * 4096 + (← Hex.value? b) * 256 + (← Hex.value? c) * 16 + (← Hex.value? d))

/-- **The first half of a surrogate pair.** -/
def isLeading (u : Nat) : Bool := 0xD800 ≤ u && u < 0xDC00

/-- **The second half of a surrogate pair.** -/
def isTrailing (u : Nat) : Bool := 0xDC00 ≤ u && u < 0xE000

/-- **The character of a one-letter escape.** -/
def unescape? (c : Char) : Option Char :=
  match c with
  | '"' => some '"'
  | '\\' => some '\\'
  | '/' => some '/'
  | 'b' => some '\x08'
  | 'f' => some '\x0c'
  | 'n' => some '\n'
  | 'r' => some '\r'
  | 't' => some '\t'
  | _ => none

/-- **A piece of a string**: a character, or a code unit written as an escape. -/
inductive Piece where
  | char (c : Char)
  | unit (u : Nat)

/-- **Scan the pieces of a string** from behind its opening quote to behind its closing one.  Nothing
if the syntax of strings is broken. -/
def scanPieces : List Char → Option (List Piece × List Char)
  | [] => none
  | '"' :: cs => some ([], cs)
  | '\\' :: 'u' :: a :: b :: c :: d :: cs => do
    let u ← unit? a b c d
    let (ps, rest) ← scanPieces cs
    return (.unit u :: ps, rest)
  | '\\' :: c :: cs => do
    let e ← unescape? c
    let (ps, rest) ← scanPieces cs
    return (.char e :: ps, rest)
  | c :: cs =>
    if c.toNat < 32 ∨ c = '\\' then none
    else do
      let (ps, rest) ← scanPieces cs
      return (.char c :: ps, rest)

/-- **Join the pieces of a string.**  Two units that are the halves of a surrogate pair become one
character; a half that stands alone spoils the string. -/
def joinPieces : List Piece → Option (List Char)
  | [] => some []
  | .char c :: ps => (joinPieces ps).map (c :: ·)
  | .unit u :: ps =>
    if isLeading u then
      match ps with
      | .unit t :: ps =>
        if isTrailing t then
          (joinPieces ps).map
            (Char.ofNat (0x10000 + (u - 0xD800) * 1024 + (t - 0xDC00)) :: ·)
        else none
      | _ => none
    else if isTrailing u then none
    else (joinPieces ps).map (Char.ofNat u :: ·)

/-- **A scanned string**: its characters, absent after a lone surrogate, and the text behind it. -/
def scanString (cs : List Char) : Option (Option (List Char) × List Char) :=
  (scanPieces cs).map fun r => (joinPieces r.1, r.2)

/-! ## 2. Numbers -/

/-- **Digits at the front**, and what follows them. -/
def takeDigits (cs : List Char) : List Char × List Char :=
  (cs.takeWhile Char.isDigit, cs.dropWhile Char.isDigit)

/-- **The parts of a number text**: sign, digits before the point, digits after it if there is a
point, and the exponent with its sign if there is one. -/
structure Literal where
  negative : Bool
  whole : List Char
  fraction : Option (List Char)
  exponent : Option (Bool × List Char)

/-- **Scan the fraction of a number.**  A point needs a digit after it. -/
def scanFraction (cs : List Char) : Option (Option (List Char) × List Char) :=
  match cs with
  | '.' :: cs =>
    let (ds, rest) := takeDigits cs
    if ds.isEmpty then none else some (some ds, rest)
  | cs => some (none, cs)

/-- **Scan the exponent of a number.**  It needs a digit, after a sign or not. -/
def scanExponent (cs : List Char) : Option (Option (Bool × List Char) × List Char) :=
  let digits (negative : Bool) (cs : List Char) : Option (Option (Bool × List Char) × List Char) :=
    let (ds, rest) := takeDigits cs
    if ds.isEmpty then none else some (some (negative, ds), rest)
  match cs with
  | c :: cs =>
    if c = 'e' ∨ c = 'E' then
      match cs with
      | '+' :: cs => digits false cs
      | '-' :: cs => digits true cs
      | cs => digits false cs
    else some (none, c :: cs)
  | [] => some (none, [])

/-- **Scan a number.**  A leading zero stands alone before the point. -/
def scanNumber (cs : List Char) : Option (Literal × List Char) := do
  let (negative, cs) := match cs with
    | '-' :: cs => (true, cs)
    | cs => (false, cs)
  let (whole, cs) := takeDigits cs
  if whole.isEmpty ∨ (whole.head? = some '0' ∧ whole.length ≠ 1) then none
  else
    let (fraction, cs) ← scanFraction cs
    let (exponent, cs) ← scanExponent cs
    return (⟨negative, whole, fraction, exponent⟩, cs)

/-- **Gather digits into a significand** as long as it fits an unsigned word.  The result counts the
digits gathered and gives those left. -/
def gather : (significand : Nat) → (taken : Nat) → List Char → Nat × Nat × List Char
  | s, n, [] => (s, n, [])
  | s, n, c :: cs =>
    let s' := s * 10 + (c.toNat - 48)
    if s' < UInt64.size then gather s' (n + 1) cs else (s, n, c :: cs)

/-- **The number of a literal**: a word if it is written as an integer that fits one, other than
minus zero, and otherwise a double.  The significand of the double is what digits an unsigned word
has room for; of the digits that it has no room for only the number counts.  Nothing if the double
is out of range. -/
def Literal.number? (l : Literal) : Option Number :=
  let (s, _, left) := gather 0 0 l.whole
  let plain := l.fraction.isNone && l.exponent.isNone && left.isEmpty
  if plain ∧ ¬ l.negative then some (.natural (UInt64.ofNat s))
  else if plain ∧ 0 < s ∧ s ≤ 2 ^ 63 then some (.negative (Int64.ofInt (-(s : Int))))
  else
    let (s, shift) : Nat × Int :=
      match l.fraction with
      | none => (s, left.length)
      | some ds =>
        let (s', n, _) := gather s 0 ds
        (s', (left.length : Int) - n)
    let real (e : Int) : Option Number :=
      (Binary64.ofScientific? l.negative s e).map .real
    match l.exponent with
    | none => real shift
    | some (down, ds) =>
      let n := Nat.ofDigitChars 10 ds 0
      if n < 2 ^ 31 then real (if down then shift - n else shift + n)
      else if s = 0 ∨ down then some (.real (Binary64.zero l.negative))
      else none

/-! ## 3. Values -/

/-- **A blank** between the parts of a JSON text. -/
def isBlank (c : Char) : Bool :=
  c = ' ' || c = '\n' || c = '\t' || c = '\r'

/-- **Skip blanks.** -/
def skipBlanks (cs : List Char) : List Char :=
  cs.dropWhile isBlank

/-- **What follows a word**, if the text begins with it. -/
def afterWord? : (word : List Char) → List Char → Option (List Char)
  | [], cs => some cs
  | w :: ws, c :: cs => if w = c then afterWord? ws cs else none
  | _ :: _, [] => none

/-- **A word that stands for a value**, or the break. -/
def ofWord (value : Raw) (word : String) (cs : List Char) : Raw × Option (List Char) :=
  match afterWord? word.toList cs with
  | some rest => (value, some rest)
  | none => (.broken, none)

mutual

/-- **Read a value** and give the text behind it, or nothing if the text broke.  The bound exceeds
the length of the text and is never used up. -/
def readValue : (bound : Nat) → List Char → Raw × Option (List Char)
  | 0, _ => (.broken, none)
  | bound + 1, cs =>
    match skipBlanks cs with
    | [] => (.broken, none)
    | 'n' :: cs => ofWord .null "ull" cs
    | 't' :: cs => ofWord (.bool true) "rue" cs
    | 'f' :: cs => ofWord (.bool false) "alse" cs
    | '"' :: cs =>
      match scanString cs with
      | some (s, rest) => (.string (s.map String.ofList), some rest)
      | none => (.broken, none)
    | '[' :: cs =>
      match skipBlanks cs with
      | ']' :: rest => (.array [], some rest)
      | cs =>
        let (items, rest) := readItems bound cs
        (.array items, rest)
    | '\x7b' :: cs =>
      match skipBlanks cs with
      | '\x7d' :: rest => (.object [], some rest)
      | cs =>
        let (members, rest) := readMembers bound cs
        (.object members, rest)
    | cs =>
      match scanNumber cs with
      | some (l, rest) => (.number l.number?, some rest)
      | none => (.broken, none)

/-- **Read the items** of an array up to its closing bracket. -/
def readItems : (bound : Nat) → List Char → List Raw × Option (List Char)
  | 0, _ => ([.broken], none)
  | bound + 1, cs =>
    match readValue bound cs with
    | (v, none) => ([v], none)
    | (v, some rest) =>
      match skipBlanks rest with
      | ']' :: rest => ([v], some rest)
      | ',' :: rest =>
        let (vs, rest) := readItems bound rest
        (v :: vs, rest)
      | _ => ([v, .broken], none)

/-- **Read the members** of an object up to its closing brace. -/
def readMembers : (bound : Nat) → List Char → List (Option String × Raw) × Option (List Char)
  | 0, _ => ([(none, .broken)], none)
  | bound + 1, cs =>
    match skipBlanks cs with
    | '"' :: cs =>
      match scanString cs with
      | none => ([(none, .broken)], none)
      | some (name, rest) =>
        let name := name.map String.ofList
        match skipBlanks rest with
        | ':' :: rest =>
          match readValue bound rest with
          | (v, none) => ([(name, v)], none)
          | (v, some rest) =>
            match skipBlanks rest with
            | '\x7d' :: rest => ([(name, v)], some rest)
            | ',' :: rest =>
              let (ms, rest) := readMembers bound rest
              ((name, v) :: ms, rest)
            | _ => ([(name, v), (none, .broken)], none)
        | _ => ([(name, .broken)], none)
    | _ => ([(none, .broken)], none)

end

/-- **Read a text**: the raw value at its front, and whether nothing but blanks follows. -/
def ofChars (cs : List Char) : Raw × Bool :=
  match readValue (2 * cs.length + 2) cs with
  | (v, some rest) => (v, (skipBlanks rest).isEmpty)
  | (v, none) => (v, false)

/-! ## 4. Whole values -/

mutual

/-- **No break inside.**  Such a value can be skipped. -/
def isWhole : Raw → Bool
  | .broken => false
  | .array items => wholeItems items
  | .object members => wholeMembers members
  | .null => true
  | .bool _ => true
  | .number _ => true
  | .string _ => true

def wholeItems : List Raw → Bool
  | [] => true
  | v :: vs => isWhole v && wholeItems vs

def wholeMembers : List (Option String × Raw) → Bool
  | [] => true
  | (_, v) :: ms => isWhole v && wholeMembers ms

end

/-- **How deep arrays and objects may nest** in a text. -/
def maxDepth : Nat := 127

mutual

/-- **How deep arrays and objects nest** in a value. -/
def depth : Raw → Nat
  | .array items => depthItems items + 1
  | .object members => depthMembers members + 1
  | .broken => 0
  | .null => 0
  | .bool _ => 0
  | .number _ => 0
  | .string _ => 0

def depthItems : List Raw → Nat
  | [] => 0
  | v :: vs => max (depth v) (depthItems vs)

def depthMembers : List (Option String × Raw) → Nat
  | [] => 0
  | (_, v) :: ms => max (depth v) (depthMembers ms)

end

mutual

/-- **The value** of a raw value without faults and nested at most `room` deep, in canonical form. -/
def toJson? : (room : Nat) → Raw → Option Json
  | _, .broken => none
  | _, .null => some .null
  | _, .bool b => some (.bool b)
  | _, .number n => n.map .number
  | _, .string s => s.map .string
  | 0, .array _ => none
  | 0, .object _ => none
  | room + 1, .array items => (toItems? room items).map .array
  | room + 1, .object members => (toMembers? room members).map fun ms => .object (sortMembers ms)

def toItems? : (room : Nat) → List Raw → Option (List Json)
  | _, [] => some []
  | room, v :: vs => do return (← toJson? room v) :: (← toItems? room vs)

def toMembers? : (room : Nat) → List (Option String × Raw) → Option (List (String × Json))
  | _, [] => some []
  | room, (name, v) :: ms => do return (← name, ← toJson? room v) :: (← toMembers? room ms)

end

mutual

/-- **A value as a raw value** without faults. -/
def ofJson : Json → Raw
  | .null => .null
  | .bool b => .bool b
  | .number n => .number (some n)
  | .string s => .string (some s)
  | .array items => .array (ofItems items)
  | .object members => .object (ofMembers members)

def ofItems : List Json → List Raw
  | [] => []
  | j :: js => ofJson j :: ofItems js

def ofMembers : List (String × Json) → List (Option String × Raw)
  | [] => []
  | (name, j) :: ms => (some name, ofJson j) :: ofMembers ms

end

end Raw

/-- **Read a JSON text** as one value in canonical form, with nothing but blanks around it. -/
def ofChars? (cs : List Char) : Option Json :=
  match Raw.ofChars cs with
  | (v, true) => v.toJson? Raw.maxDepth
  | (_, false) => none

end Json

end ShardLedger
