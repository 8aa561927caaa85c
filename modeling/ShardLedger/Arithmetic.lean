/-
Powers and sums of whole numbers.

A power asks for an instance that says how a number is raised, and the sum of a list for one that says
what nothing adds up to.  A library of algebra brings instances of its own, with the same values.  Those
of the language are preferred throughout, so that a definition that is read next to such a library is
the expression it is on its own, and the lemmas about the natural numbers speak of it as it stands.
-/

set_option autoImplicit false

namespace ShardLedger

-- An exponent that is a numeral is given its type by the default instance, any other by the search.
attribute [instance (high)] instPowNat
attribute [default_instance 20000] instPowNat

instance instZeroNat : Zero Nat where
  zero := 0

instance instZeroInt : Zero Int where
  zero := 0

end ShardLedger
