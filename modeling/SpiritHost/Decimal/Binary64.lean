/-!
# Binary floating point

A 64-bit float taken apart into a sign and an exact value `significand * 2 ^ exponent`. What is
computed from a float exactly (its shortest decimal form, its integer part) starts here.
-/

namespace SpiritHost.Decimal

/-- What the bits of a 64-bit float stand for. -/
inductive Binary64 where
  /-- `significand * 2 ^ exponent`, negated if `negative`. -/
  | finite (negative : Bool) (significand : Nat) (exponent : Int)
  | infinite (negative : Bool)
  | notANumber
deriving DecidableEq, Repr

namespace Binary64

/-- The least exponent of a finite value. -/
def minExponent : Int := -1074

/-- The significand of a value just above a power of two; below it neighbours are twice as close. -/
def hiddenBit : Nat := 1 <<< 52

/-- The value of a pattern of bits. -/
def ofBits (bits : UInt64) : Binary64 :=
  let negative := bits.toNat >>> 63 = 1
  let biased : Nat := (bits.toNat >>> 52) % 2048
  let fraction := bits.toNat % hiddenBit
  if biased = 2047 then
    if fraction = 0 then infinite negative else notANumber
  else if biased = 0 then finite negative fraction minExponent
  else finite negative (hiddenBit + fraction) (biased - 1 + minExponent)

/-- The integer part of a finite value, cut off toward zero. -/
def truncate? : Binary64 → Option Int
  | finite negative m q =>
    let magnitude := if 0 ≤ q then m <<< q.toNat else m >>> (-q).toNat
    some (if negative then -(magnitude : Int) else magnitude)
  | _ => none

end Binary64

end SpiritHost.Decimal
