import SpiritHost.Decimal.Shortest

/-!
# Overflow

The decimals whose nearest float is infinite: those that lie at or beyond the middle between the
greatest float and the next power of two.
-/

namespace SpiritHost.Decimal

/-- The least number whose nearest float is infinite. -/
def overflowBound : Nat := 1 <<< 1024 - 1 <<< 970

/-- No decimal with a leading digit from this position on has a finite float. -/
def maxLeading : Int := 400

/-- The nearest float is infinite. Far outside the range of floats no power is computed. -/
def overflows (d : Decimal) : Bool :=
  if d.digits = 0 ∨ d.leading < 0 then false
  else if maxLeading ≤ d.leading then true
  else overflowBound * powerOfTen (-d.exponent).toNat ≤ d.digits * powerOfTen d.exponent.toNat

end SpiritHost.Decimal
