/-
Blank characters.

A line that holds nothing but white space asks for nothing.  White space is the Unicode property of
that name: the ASCII blanks and the separators beyond, but not the information separators.
-/

set_option autoImplicit false

namespace ShardLedger

namespace Text

/-- **The characters with the property White_Space.** -/
def isBlank (c : Char) : Bool :=
  let n := c.toNat
  (0x9 ≤ n && n ≤ 0xD) || n = 0x20 || n = 0x85 || n = 0xA0 || n = 0x1680
    || (0x2000 ≤ n && n ≤ 0x200A) || n = 0x2028 || n = 0x2029 || n = 0x202F || n = 0x205F
    || n = 0x3000

/-- **A text of blanks**, the empty one included. -/
def isBlankText (cs : List Char) : Bool :=
  cs.all isBlank

end Text

end ShardLedger
