/-!
# Ranges of characters

A class of characters, given by the ranges of numbers that its members have.
-/

namespace SpiritHost.Text

/-- Ranges of character numbers, both ends included. -/
abbrev Ranges := List (Nat × Nat)

namespace Ranges

/-- A character's number lies in one of the ranges. -/
def contains (ranges : Ranges) (c : Char) : Bool :=
  ranges.any fun (first, last) => first ≤ c.toNat && c.toNat ≤ last

/-- Ranges in order that neither overlap nor touch: each begins past the end of the one before. -/
def areOrdered : Ranges → Bool
  | (first, last) :: (next, after) :: rest =>
    first ≤ last && last + 1 < next && areOrdered ((next, after) :: rest)
  | [(first, last)] => first ≤ last
  | [] => true

end Ranges

end SpiritHost.Text
