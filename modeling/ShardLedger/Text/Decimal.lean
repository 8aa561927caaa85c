import ShardLedger.Arithmetic
/-
Decimal digits and separators.

Identifiers and timestamps are written in ASCII decimal digits, with a dot or an at sign between the
parts.  A part is read as a plain natural number: no sign, no blank, no separator, any number of
leading zeros.  Texts are cut here as lists of characters; the two cutting functions lose nothing.
-/

set_option autoImplicit false

namespace ShardLedger

namespace Text

/-! ## 1. Digits -/

/-- **The digits of a number**, without leading zeros. -/
def digits (n : Nat) : List Char :=
  Nat.toDigits 10 n

/-- **A digit string**: at least one character, and only the ASCII digits. -/
def isDigits (cs : List Char) : Bool :=
  !cs.isEmpty && cs.all Char.isDigit

/-- **The number a digit string writes**; nothing else is a number. -/
def number? (cs : List Char) : Option Nat :=
  if isDigits cs then some (Nat.ofDigitChars 10 cs 0) else none

/-- **The digits of a number, padded** with zeros on the left to `width`. -/
def paddedDigits (width n : Nat) : List Char :=
  List.replicate (width - (digits n).length) '0' ++ digits n

/-- **The text of an integer**: a minus sign before a negative one. -/
def integer (i : Int) : List Char :=
  if i < 0 then '-' :: digits i.natAbs else digits i.natAbs

/-- **The text of an integer, padded** with zeros between sign and digits to `width` characters,
the sign counted. -/
def paddedInteger (width : Nat) (i : Int) : List Char :=
  if i < 0 then '-' :: paddedDigits (width - 1) i.natAbs else paddedDigits width i.natAbs

/-! ## 2. Cutting at separators -/

/-- **Cut at the first separator.**  Nothing if there is none. -/
def cut (sep : Char) : List Char → Option (List Char × List Char)
  | [] => none
  | c :: cs => if c = sep then some ([], cs) else (cut sep cs).map fun p => (c :: p.1, p.2)

/-- **The parts between separators**: one more than there are separators. -/
def parts (sep : Char) : List Char → List (List Char)
  | [] => [[]]
  | c :: cs =>
    if c = sep then [] :: parts sep cs
    else
      match parts sep cs with
      | [] => [[c]]
      | p :: ps => (c :: p) :: ps

end Text

end ShardLedger
