import SpiritHost.Decimal.Binary64

/-!
# Shortest decimals

The decimal with the fewest digits that reads back as a given float, and of those the one nearest
to it. Reading rounds to nearest, so a float owns an interval of reals around it, whose ends belong
to it if its significand is even. On the grid of decimals with a given number of digits only the
two neighbours of the value can be the nearest one inside; the first grid with a hit wins.
-/

namespace SpiritHost

/-- The number `digits * 10 ^ exponent`. -/
structure Decimal where
  digits : Nat
  exponent : Int
deriving DecidableEq, Repr

namespace Decimal

/-- Powers of ten. -/
def powerOfTen (n : Nat) : Nat := Nat.pow 10 n

/-- Number of decimal digits of a number. -/
def digitCount (n : Nat) : Nat := (Nat.toDigits 10 n).length

/-- The exponent of the first digit: the position of the decimal's leading digit. -/
def leading (d : Decimal) : Int := d.exponent + digitCount d.digits - 1

/-- Takes trailing zeros into the exponent, at most `bound` of them. -/
def strip : Nat → Decimal → Decimal
  | 0, d => d
  | bound + 1, d =>
    if d.digits ≠ 0 ∧ d.digits % 10 = 0 then strip bound ⟨d.digits / 10, d.exponent + 1⟩ else d

/-- The interval of reals that read back as `significand * 2 ^ exponent`, its value and its two
ends counted in quarters of the last place. -/
structure Neighbourhood where
  value : Nat
  low : Nat
  high : Nat
  /-- The binary exponent of a quarter of the last place. -/
  exponent : Int
  closed : Bool
deriving DecidableEq, Repr

/-- The reals nearer to a positive float than to any other. -/
def Neighbourhood.of (significand : Nat) (exponent : Int) : Neighbourhood where
  value := 4 * significand
  low :=
    if significand = Binary64.hiddenBit ∧ Binary64.minExponent < exponent then 4 * significand - 1
    else 4 * significand - 2
  high := 4 * significand + 2
  exponent := exponent - 2
  closed := significand % 2 = 0

namespace Neighbourhood

/-- A number of quarters as a multiple of a unit shared with the decimal grid. -/
def scale (n : Neighbourhood) (grid : Int) (quarters : Nat) : Nat :=
  (quarters <<< n.exponent.toNat) * powerOfTen (-grid).toNat

/-- A point of the decimal grid as a multiple of the same unit. -/
def scaleGrid (n : Neighbourhood) (grid : Int) (point : Nat) : Nat :=
  (point * powerOfTen grid.toNat) <<< (-n.exponent).toNat

/-- A point of the grid reads back as the float. -/
def contains (n : Neighbourhood) (grid : Int) (point : Nat) : Bool :=
  let p := n.scaleGrid grid point
  let low := n.scale grid n.low
  let high := n.scale grid n.high
  if n.closed then low ≤ p && p ≤ high else low < p && p < high

/-- The greatest point of the grid that is not above the value. -/
def floor (n : Neighbourhood) (grid : Int) : Nat :=
  n.scale grid n.value / n.scaleGrid grid 1

/-- The nearest point of the grid that reads back, if one does; a tie goes to the even point. -/
def nearest? (n : Neighbourhood) (grid : Int) : Option Nat :=
  let below := n.floor grid
  let v := n.scale grid n.value
  match n.contains grid below, n.contains grid (below + 1) with
  | true, true =>
    let down := v - n.scaleGrid grid below
    let up := n.scaleGrid grid (below + 1) - v
    some (if down < up ∨ (down = up ∧ below % 2 = 0) then below else below + 1)
  | true, false => some below
  | false, true => some (below + 1)
  | false, false => none

/-- The position of the value's leading decimal digit. -/
def leading (n : Neighbourhood) : Int :=
  let numerator := n.scale 0 n.value
  let denominator := n.scaleGrid 0 1
  if denominator ≤ numerator then digitCount (numerator / denominator) - 1
  else
    let places := digitCount (denominator / numerator)
    if denominator ≤ numerator * powerOfTen (places - 1) then -((places - 1 : Nat) : Int)
    else -(places : Int)

/-- The first grid with a hit, trying finer and finer ones. -/
def search (n : Neighbourhood) : Nat → (grid : Int) → Option Decimal
  | 0, _ => none
  | more + 1, grid =>
    match n.nearest? grid with
    | some point => some (Decimal.strip (digitCount point) ⟨point, grid⟩)
    | none => n.search more (grid - 1)

end Neighbourhood

/-- Seventeen digits tell any two floats apart. -/
def maxDigits : Nat := 17

/-- The shortest decimal that reads back as `significand * 2 ^ exponent`. -/
def shortest (significand : Nat) (exponent : Int) : Decimal :=
  if significand = 0 then ⟨0, 0⟩
  else
    let n := Neighbourhood.of significand exponent
    (n.search maxDigits n.leading).getD ⟨0, 0⟩

/-- How a decimal is written: positionally while its leading digit is in a range of positions,
otherwise with an exponent. -/
structure Style where
  /-- The first position written positionally. -/
  plainFrom : Int
  /-- The first position above that is not. -/
  plainBelow : Int
deriving DecidableEq, Repr

/-- A run of zeros. -/
def zeros (n : Nat) : String := String.ofList (List.replicate n '0')

/-- A positive decimal in a style; there is always a fraction or an exponent. -/
def Style.write (style : Style) (d : Decimal) : String :=
  let digits := Nat.toDigits 10 d.digits
  let lead := d.leading
  if style.plainFrom ≤ lead ∧ lead < style.plainBelow then
    if lead < 0 then "0." ++ zeros (-lead - 1).toNat ++ String.ofList digits
    else
      let whole := lead.toNat + 1
      if digits.length ≤ whole then String.ofList digits ++ zeros (whole - digits.length) ++ ".0"
      else String.ofList (digits.take whole) ++ "." ++ String.ofList (digits.drop whole)
  else
    let fraction := digits.drop 1
    let mantissa := String.ofList (digits.take 1) ++
      (if fraction.isEmpty then "" else "." ++ String.ofList fraction)
    mantissa ++ (if lead < 0 then "e-" else "e+") ++ toString lead.natAbs

/-- A float in a style, if it is finite. Zero keeps its sign. -/
def Style.writeBits? (style : Style) (bits : UInt64) : Option String :=
  match Binary64.ofBits bits with
  | .finite negative significand exponent =>
    let magnitude := if significand = 0 then "0.0" else style.write (shortest significand exponent)
    some (if negative then "-" ++ magnitude else magnitude)
  | _ => none

end Decimal

end SpiritHost
