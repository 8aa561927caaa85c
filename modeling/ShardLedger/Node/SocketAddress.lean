import ShardLedger.Hex
import ShardLedger.Text.Decimal
/-
Socket addresses.

An address is four octets or eight groups of sixteen bits, and a port.  Octets are written without
leading zeros, lest they be taken for octal; a run of zero groups may be left out once, and the last
two groups may be written as octets; groups and ports may have leading zeros.  In writing, the longest
run of at least two zero groups is left out, the first of several.
-/

set_option autoImplicit false

namespace ShardLedger

/-- **A socket address.** -/
inductive SocketAddress where
  /-- Four octets and a port. -/
  | four (octets : List Nat) (port : Nat)
  /-- Eight groups, a scope, which is zero if there is none, and a port. -/
  | six (groups : List Nat) (scope : Nat) (port : Nat)
deriving DecidableEq, Repr

namespace SocketAddress

/-! ## 1. Reading -/

/-- **A scanner** takes a value from the front of a text, if there is one. -/
abbrev Scanner (α : Type) := List Char → Option (α × List Char)

/-- **Scan a character.** -/
def scanChar (c : Char) : Scanner Unit
  | d :: cs => if c = d then some ((), cs) else none
  | [] => none

/-- **Scan a number** in a base up to sixteen, of as many digits as there are. -/
def scanNumber (base : Nat) : Scanner (Nat × List Char) := fun cs =>
  let isDigit := fun c => (Hex.value? c).any (· < base)
  let ds := cs.takeWhile isDigit
  if ds.isEmpty then none
  else
    let n := ds.foldl (fun n c => n * base + (Hex.value? c).getD 0) 0
    some ((n, ds), cs.dropWhile isDigit)

/-- **Scan an octet.** -/
def scanOctet : Scanner Nat := fun cs => do
  let ((n, ds), rest) ← scanNumber 10 cs
  if n < 256 ∧ (ds.length = 1 ∨ ds.head? ≠ some '0') then some (n, rest) else none

/-- **Scan a group.** -/
def scanGroup : Scanner Nat := fun cs => do
  let ((n, ds), rest) ← scanNumber 16 cs
  if ds.length ≤ 4 then some (n, rest) else none

/-- **Scan a decimal number below a bound**, leading zeros allowed. -/
def scanBelow (bound : Nat) : Scanner Nat := fun cs => do
  let ((n, _), rest) ← scanNumber 10 cs
  if n < bound then some (n, rest) else none

/-- **Scan what stands after a separator**, which the first of a sequence does without. -/
def scanAfter {α : Type} (sep : Char) (isFirst : Bool) (one : Scanner α) : Scanner α := fun cs =>
  if isFirst then one cs else (scanChar sep cs).bind fun r => one r.2

/-- **Scan four octets** with dots between them. -/
def scanFour : Scanner (List Nat) := fun cs => do
  let (a, cs) ← scanOctet cs
  let (b, cs) ← scanAfter '.' false scanOctet cs
  let (c, cs) ← scanAfter '.' false scanOctet cs
  let (d, cs) ← scanAfter '.' false scanOctet cs
  return ([a, b, c, d], cs)

/-- **The two groups of four octets.** -/
def groupsOfFour : List Nat → List Nat
  | [a, b, c, d] => [a * 256 + b, c * 256 + d]
  | _ => []

/-- **Scan groups**, at most so many, of which the last two may be octets.  Tells whether they are. -/
def scanGroups : (room : Nat) → (isFirst : Bool) → List Char → List Nat × Bool × List Char
  | 0, _, cs => ([], false, cs)
  | room + 1, isFirst, cs =>
    match if 0 < room then scanAfter ':' isFirst scanFour cs else none with
    | some (octets, rest) => (groupsOfFour octets, true, rest)
    | none =>
      match scanAfter ':' isFirst scanGroup cs with
      | some (g, rest) =>
        let (gs, mixed, rest) := scanGroups room false rest
        (g :: gs, mixed, rest)
      | none => ([], false, cs)

/-- **Scan eight groups**, or fewer around a run of zeros that is left out. -/
def scanSix : Scanner (List Nat) := fun cs =>
  let (head, mixed, rest) := scanGroups 8 true cs
  if head.length = 8 then some (head, rest)
  else if mixed then none
  else do
    let ((), rest) ← scanChar ':' rest
    let ((), rest) ← scanChar ':' rest
    let (tail, _, rest) := scanGroups (7 - head.length) true rest
    return (head ++ List.replicate (8 - head.length - tail.length) 0 ++ tail, rest)

/-- **Scan a port.** -/
def scanPort : Scanner Nat := fun cs => do
  let ((), cs) ← scanChar ':' cs
  scanBelow 65536 cs

/-- **Scan a scope**, which may be absent. -/
def scanScope (cs : List Char) : Nat × List Char :=
  match (scanChar '%' cs).bind fun r => scanBelow (2 ^ 32) r.2 with
  | some r => r
  | none => (0, cs)

/-- **Scan an address of octets.** -/
def scanFourAddress : Scanner SocketAddress := fun cs => do
  let (octets, cs) ← scanFour cs
  let (port, cs) ← scanPort cs
  return (.four octets port, cs)

/-- **Scan an address of groups.** -/
def scanSixAddress : Scanner SocketAddress := fun cs => do
  let ((), cs) ← scanChar '[' cs
  let (groups, cs) ← scanSix cs
  let (scope, cs) := scanScope cs
  let ((), cs) ← scanChar ']' cs
  let (port, cs) ← scanPort cs
  return (.six groups scope port, cs)

/-- **Read an address.** -/
def parse? (s : String) : Option SocketAddress :=
  let cs := s.toList
  match (scanFourAddress cs).or (scanSixAddress cs) with
  | some (a, []) => some a
  | _ => none

/-! ## 2. Writing -/

/-- **Numbers with a separator between them.** -/
def joined (write : Nat → List Char) (sep : Char) : List Nat → List Char
  | [] => []
  | [n] => write n
  | n :: ns => write n ++ sep :: joined write sep ns

/-- **The zeros at the front.** -/
def leadingZeros (groups : List Nat) : Nat :=
  (groups.takeWhile (· = 0)).length

/-- **The longest run of zeros**, as its start and its length; the first of several. -/
def longestZeros (groups : List Nat) : Nat × Nat :=
  (List.range groups.length).foldl
    (fun best i =>
      let n := leadingZeros (groups.drop i)
      if best.2 < n then (i, n) else best)
    (0, 0)

/-- **The text of octets.** -/
def octetChars (octets : List Nat) : List Char :=
  joined Text.digits '.' octets

/-- **The text of groups.**  Octets that stand in for groups are written as octets. -/
def groupChars (groups : List Nat) : List Char :=
  let write := joined (Nat.toDigits 16) ':'
  match groups with
  | [0, 0, 0, 0, 0, 0xffff, a, b] =>
    "::ffff:".toList ++ octetChars [a / 256, a % 256, b / 256, b % 256]
  | _ =>
    let (start, n) := longestZeros groups
    if 1 < n then write (groups.take start) ++ "::".toList ++ write (groups.drop (start + n))
    else write groups

/-- **The text of an address.** -/
def text : SocketAddress → String
  | .four octets port => String.ofList (octetChars octets ++ ':' :: Text.digits port)
  | .six groups scope port =>
    let zone := if scope = 0 then [] else '%' :: Text.digits scope
    String.ofList ('[' :: groupChars groups ++ zone ++ "]:".toList ++ Text.digits port)

end SocketAddress

end ShardLedger
