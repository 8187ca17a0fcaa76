import SpiritHost.Decimal.Binary32
import SpiritHost.Decimal.Binary64
import SpiritHost.Wasm.Operation

/-!
# Floats

Floats are computed on their bits. A 32-bit float has a 64-bit float of the same value, so there is
one computation for both. Results that are not a number go by one rule (`FloatType.nanResult?`).
-/

namespace SpiritHost.Wasm

open Decimal

namespace FloatType

/-- The bits of infinity: above them, but for the sign, nothing is a number. -/
def infinity : (t : FloatType) → BitVec t.width
  | f32 => 0x7F800000#32
  | f64 => 0x7FF0000000000000#64

/-- The sign. -/
def signBit : (t : FloatType) → BitVec t.width
  | f32 => 0x80000000#32
  | f64 => 0x8000000000000000#64

/-- The quiet bit of a float that is not a number. -/
def quietBit : (t : FloatType) → BitVec t.width
  | f32 => 0x00400000#32
  | f64 => 0x0008000000000000#64

/-- What an operation gives that has no result although its operands are numbers. -/
def defaultNaN (t : FloatType) : BitVec t.width := t.signBit ||| t.infinity ||| t.quietBit

/-- The bits are not a number. -/
def isNaN (t : FloatType) (bits : BitVec t.width) : Bool := t.infinity < bits &&& ~~~t.signBit

/-- The result of an operation that has an operand which is not a number: the first such operand,
made quiet. -/
def nanResult? (t : FloatType) (operands : List (BitVec t.width)) : Option (BitVec t.width) :=
  (operands.find? t.isNaN).map (· ||| t.quietBit)

/-- The bits of the 64-bit float of the same value. -/
def wide : (t : FloatType) → BitVec t.width → UInt64
  | f32, bits => Binary32.widen (.ofBitVec bits)
  | f64, bits => .ofBitVec bits

/-- The number that bits stand for. -/
def number (t : FloatType) (bits : BitVec t.width) : Float := Float.ofBits (t.wide bits)

/-- The bits of the float nearest to a number. Rounding a 64-bit sum, product, quotient or root once
more gives what rounding the exact one to 32 bits does. -/
def round : (t : FloatType) → Float → BitVec t.width
  | f32, x => x.toFloat32.toBits.toBitVec
  | f64, x => x.toBits.toBitVec

/-- An operation on numbers, by their bits. -/
def arithmetic (t : FloatType) (result : Float) (operands : List (BitVec t.width)) :
    BitVec t.width :=
  match t.nanResult? operands with
  | some bits => bits
  | none =>
    let bits := t.round result
    if t.isNaN bits then t.defaultNaN else bits

/-- One float with the sign of another. -/
def withSign (t : FloatType) (bits source : BitVec t.width) : BitVec t.width :=
  (bits &&& ~~~t.signBit) ||| (source &&& t.signBit)

/-- The least 64-bit float without a fraction from which on all are so. -/
def integersFrom : Float := 4503599627370496.0

/-- The nearest integer, of two the even one. Adding and subtracting the bound makes rounding do the
work; the sign is put back, for zeros too. -/
def nearest (t : FloatType) (bits : BitVec t.width) : BitVec t.width :=
  let magnitude := (t.number bits).abs
  if magnitude < integersFrom then
    t.withSign (t.round ((magnitude + integersFrom) - integersFrom)) bits
  else bits

/-- The bits of the float nearest to an integer of at most 64 bits. -/
def ofInt (t : FloatType) (n : Int) : BitVec t.width :=
  let magnitude := UInt64.ofNat n.natAbs
  let bits : BitVec t.width := match t with
    | f32 => magnitude.toFloat32.toBits.toBitVec
    | f64 => magnitude.toFloat.toBits.toBitVec
  if n < 0 then bits ||| t.signBit else bits

/-- The nearest 32-bit float. What is not a number keeps its sign and the upper part of its
fraction. -/
def demote (bits : BitVec (width .f64)) : BitVec (width .f32) :=
  if isNaN .f64 bits then
    (bits >>> 32).setWidth 32 &&& 0x80000000#32 ||| 0x7FC00000#32 |||
      (bits >>> 29).setWidth 32 &&& 0x003FFFFF#32
  else round .f32 (number .f64 bits)

/-- The 64-bit float of the same value. -/
def promote (bits : BitVec (width .f32)) : BitVec (width .f64) :=
  let same := (wide .f32 bits).toBitVec
  (nanResult? .f64 [same]).getD same

end FloatType

def FloatUnary.eval (t : FloatType) : FloatUnary → BitVec t.width → BitVec t.width
  | abs, a => a &&& ~~~t.signBit
  | neg, a => a ^^^ t.signBit
  | ceil, a => t.arithmetic (t.number a).ceil [a]
  | floor, a => t.arithmetic (t.number a).floor [a]
  | trunc, a =>
    let x := t.number a
    t.arithmetic (if x < 0 then x.ceil else x.floor) [a]
  | nearest, a => (t.nanResult? [a]).getD (t.nearest a)
  | sqrt, a => t.arithmetic (t.number a).sqrt [a]

/-- Of two zeros the least is the negative one. -/
def FloatBinary.eval (t : FloatType) :
    FloatBinary → BitVec t.width → BitVec t.width → BitVec t.width
  | add, a, b => t.arithmetic (t.number a + t.number b) [a, b]
  | sub, a, b => t.arithmetic (t.number a - t.number b) [a, b]
  | mul, a, b => t.arithmetic (t.number a * t.number b) [a, b]
  | div, a, b => t.arithmetic (t.number a / t.number b) [a, b]
  | min, a, b => (t.nanResult? [a, b]).getD <|
    if t.number a < t.number b then a else if t.number b < t.number a then b else a ||| b
  | max, a, b => (t.nanResult? [a, b]).getD <|
    if t.number a < t.number b then b else if t.number b < t.number a then a else a &&& b
  | copysign, a, b => t.withSign a b

def FloatRelation.holds (t : FloatType) : FloatRelation → BitVec t.width → BitVec t.width → Bool
  | eq, a, b => t.number a == t.number b
  | ne, a, b => t.number a != t.number b
  | lt, a, b => t.number a < t.number b
  | gt, a, b => t.number b < t.number a
  | le, a, b => t.number a ≤ t.number b
  | ge, a, b => t.number b ≤ t.number a

end SpiritHost.Wasm
