/-!
# Narrow floats

A 32-bit float has a 64-bit float of the same value. Results of that type leave as 64-bit floats, so
what they leave as is computed here from their bits: the sign stays, the exponent gets another bias,
and the fraction is filled up with zeros.
-/

namespace SpiritHost.Decimal.Binary32

/-- The sign of a pattern of bits. -/
def sign (bits : UInt32) : Nat := bits.toNat / 0x80000000

/-- The exponent of a pattern of bits, with its bias. -/
def biased (bits : UInt32) : Nat := bits.toNat / 0x800000 % 256

/-- The fraction of a pattern of bits. -/
def fraction (bits : UInt32) : Nat := bits.toNat % 0x800000

/-- The value is a number, neither infinite nor undefined. -/
def isFinite (bits : UInt32) : Bool := biased bits ≠ 255

/-- Exponent and fraction of the wider float with the same value. A fraction without a leading bit
gets one, since the wider exponent reaches further down. -/
def wideParts (biased fraction : Nat) : Nat × Nat :=
  if biased = 255 then (2047, fraction * 0x20000000)
  else if biased = 0 then
    if fraction = 0 then (0, 0)
    else (fraction.log2 + 874, fraction <<< (52 - fraction.log2) - 0x10000000000000)
  else (biased + 896, fraction * 0x20000000)

/-- The bits of the 64-bit float with the same value. -/
def widen (bits : UInt32) : UInt64 :=
  let (exponent, wide) := wideParts (biased bits) (fraction bits)
  UInt64.ofNat ((sign bits * 2048 + exponent) * 0x10000000000000 + wide)

end SpiritHost.Decimal.Binary32
