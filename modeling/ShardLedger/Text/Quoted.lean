import ShardLedger.Text.Hidden
/-
Quoted text, as messages show it.

A message that repeats rejected input puts it between double quotes.  A double quote and a
backslash inside get a backslash, four controls have short names, every other hidden character is
spelled by its code point, and the rest stays.  A single quote needs no care.
-/

set_option autoImplicit false

namespace ShardLedger

namespace Text

/-- **The spelling of a code point**: `\u`, and its hexadecimal digits without leading zeros between
braces. -/
def spellCodePoint (c : Char) : List Char :=
  ['\\', 'u', '\x7b'] ++ Nat.toDigits 16 c.toNat ++ ['\x7d']

/-- **The spelling of one character** inside quotes. -/
def spell (c : Char) : List Char :=
  match c with
  | '"' => ['\\', '"']
  | '\\' => ['\\', '\\']
  | '\x00' => ['\\', '0']
  | '\t' => ['\\', 't']
  | '\n' => ['\\', 'n']
  | '\r' => ['\\', 'r']
  | c => if isHidden c then spellCodePoint c else [c]

/-- **A text between double quotes**, with hidden characters spelled out. -/
def quoted (s : String) : String :=
  String.ofList ('"' :: s.toList.flatMap spell ++ ['"'])

end Text

end ShardLedger
