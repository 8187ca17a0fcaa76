import SpiritHost.Wasm.Types

/-!
# Numeric operations

The operations on numbers that instructions name, and the widths in which memory is read and
written. Integers of both widths share their operations, and so do floats; an operation stands here
once, with the type that it works on beside it.
-/

namespace SpiritHost.Wasm

/-- Types of integers. -/
inductive IntType where
  | i32
  | i64
deriving DecidableEq, Repr

/-- Types of floats. -/
inductive FloatType where
  | f32
  | f64
deriving DecidableEq, Repr

/-- Types of numbers. -/
inductive NumType where
  | int (type : IntType)
  | float (type : FloatType)
deriving DecidableEq, Repr

namespace NumType

/-- The type of values. -/
def valType : NumType → ValType
  | int .i32 => .i32
  | int .i64 => .i64
  | float .f32 => .f32
  | float .f64 => .f64

/-- Bits of a number. -/
def width : NumType → Nat
  | int .i32 | float .f32 => 32
  | int .i64 | float .f64 => 64

/-- The value of given bits. -/
def value : (t : NumType) → BitVec t.width → Value
  | int .i32, bits => .i32 (.ofBitVec bits)
  | int .i64, bits => .i64 (.ofBitVec bits)
  | float .f32, bits => .f32 (.ofBitVec bits)
  | float .f64, bits => .f64 (.ofBitVec bits)

/-- The bits of a value, if it is of the type. -/
def bits? : (t : NumType) → Value → Option (BitVec t.width)
  | int .i32, .i32 word => some word.toBitVec
  | int .i64, .i64 word => some word.toBitVec
  | float .f32, .f32 bits => some bits.toBitVec
  | float .f64, .f64 bits => some bits.toBitVec
  | _, _ => none

@[simp] theorem type_value : ∀ (t : NumType) (bits : BitVec t.width),
    (t.value bits).type = t.valType
  | int .i32, _ | int .i64, _ | float .f32, _ | float .f64, _ => rfl

end NumType

/-- Bits of an integer. -/
abbrev IntType.width (t : IntType) : Nat := (NumType.int t).width

/-- Bits of a float. -/
abbrev FloatType.width (t : FloatType) : Nat := (NumType.float t).width

/-- Operations on one integer. -/
inductive IntUnary where
  | clz
  | ctz
  | popcnt
  /-- Repeats the sign of the lowest bits, so many of them. -/
  | extend (low : Nat)
deriving DecidableEq, Repr

/-- Operations on two integers. -/
inductive IntBinary where
  | add
  | sub
  | mul
  | divS
  | divU
  | remS
  | remU
  | and
  | or
  | xor
  | shl
  | shrS
  | shrU
  | rotl
  | rotr
deriving DecidableEq, Repr

/-- Comparisons of integers. -/
inductive IntRelation where
  | eq
  | ne
  | ltS
  | ltU
  | gtS
  | gtU
  | leS
  | leU
  | geS
  | geU
deriving DecidableEq, Repr

/-- Operations on one float. -/
inductive FloatUnary where
  | abs
  | neg
  | ceil
  | floor
  | trunc
  | nearest
  | sqrt
deriving DecidableEq, Repr

/-- Operations on two floats. -/
inductive FloatBinary where
  | add
  | sub
  | mul
  | div
  | min
  | max
  | copysign
deriving DecidableEq, Repr

/-- Comparisons of floats. -/
inductive FloatRelation where
  | eq
  | ne
  | lt
  | gt
  | le
  | ge
deriving DecidableEq, Repr

/-- Instructions with one operand. -/
inductive UnaryOp where
  | eqz (type : IntType)
  | int (type : IntType) (op : IntUnary)
  | float (type : FloatType) (op : FloatUnary)
  /-- The lower half of a long integer. -/
  | wrap
  /-- The long integer of the same value, as a signed or an unsigned one. -/
  | widen (isSigned : Bool)
  /-- The integer part of a float. One that is out of range traps, or saturates. -/
  | truncate (type : IntType) (isSigned : Bool) (source : FloatType) (saturates : Bool)
  /-- The float nearest to an integer. -/
  | convert (type : FloatType) (source : IntType) (isSigned : Bool)
  | demote
  | promote
  /-- The bits of a float as an integer of its width. -/
  | floatBits (source : FloatType)
  /-- The float of the same bits as an integer. -/
  | ofBits (type : FloatType)
deriving DecidableEq, Repr

/-- Instructions with two operands. -/
inductive BinaryOp where
  | int (type : IntType) (op : IntBinary)
  | intTest (type : IntType) (relation : IntRelation)
  | float (type : FloatType) (op : FloatBinary)
  | floatTest (type : FloatType) (relation : FloatRelation)
deriving DecidableEq, Repr

/-- The integers of the width of a float. -/
def FloatType.int : FloatType → IntType
  | f32 => .i32
  | f64 => .i64

theorem FloatType.width_int : ∀ t : FloatType, t.int.width = t.width
  | f32 | f64 => rfl

/-- Operand and result of an instruction with one operand. -/
def UnaryOp.signature : UnaryOp → ValType × ValType
  | eqz t => ((NumType.int t).valType, .i32)
  | int t _ => ((NumType.int t).valType, (NumType.int t).valType)
  | float t _ => ((NumType.float t).valType, (NumType.float t).valType)
  | wrap => (.i64, .i32)
  | widen _ => (.i32, .i64)
  | truncate t _ source _ => ((NumType.float source).valType, (NumType.int t).valType)
  | convert t source _ => ((NumType.int source).valType, (NumType.float t).valType)
  | demote => (.f64, .f32)
  | promote => (.f32, .f64)
  | floatBits source => ((NumType.float source).valType, (NumType.int source.int).valType)
  | ofBits t => ((NumType.int t.int).valType, (NumType.float t).valType)

/-- Operand type and result type of an instruction with two operands. -/
def BinaryOp.signature : BinaryOp → ValType × ValType
  | int t _ => ((NumType.int t).valType, (NumType.int t).valType)
  | intTest t _ => ((NumType.int t).valType, .i32)
  | float t _ => ((NumType.float t).valType, (NumType.float t).valType)
  | floatTest t _ => ((NumType.float t).valType, .i32)

/-! ## Memory -/

/-- How many bytes a memory instruction moves, as a power of two. -/
inductive Extent where
  | one
  | two
  | four
  | eight
deriving DecidableEq, Repr

/-- The exponent. -/
def Extent.log2 : Extent → Nat
  | one => 0
  | two => 1
  | four => 2
  | eight => 3

/-- The number of bytes. -/
def Extent.bytes (e : Extent) : Nat := 1 <<< e.log2

theorem Extent.bytes_pos (e : Extent) : 0 < e.bytes := by
  cases e <;> decide

/-- The bytes of a whole number. -/
def NumType.extent : NumType → Extent
  | int .i32 | float .f32 => .four
  | int .i64 | float .f64 => .eight

/-- Loads: what is read fills the lower bits of a number, and its sign the bits above or zeros. -/
structure LoadOp where
  type : NumType
  extent : Extent
  isSigned : Bool
deriving DecidableEq, Repr

/-- Stores: the lower bits of a number are written. -/
structure StoreOp where
  type : NumType
  extent : Extent
deriving DecidableEq, Repr

/-- A load of a whole number. -/
def LoadOp.whole (t : NumType) : LoadOp := ⟨t, t.extent, false⟩

/-- A store of a whole number. -/
def StoreOp.whole (t : NumType) : StoreOp := ⟨t, t.extent⟩

end SpiritHost.Wasm
