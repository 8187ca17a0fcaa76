import SpiritHost.Wasm.Float
import SpiritHost.Wasm.Module
import SpiritHost.Wasm.Trap

/-!
# Numeric instructions

Integers wrap; division and remainder cut off toward zero, and a shift goes by the remainder of its
distance by the width. A comparison gives 1 or 0. A constant expression is computed in the same way.
It has no variables, so it is well typed exactly if it has a value, and the value is of its type.
-/

namespace SpiritHost.Wasm

open Decimal (Binary64)

/-- A truth value as an integer. -/
def flag (b : Bool) : Value := .i32 (if b then 1 else 0)

@[simp] theorem type_flag (b : Bool) : (flag b).type = .i32 := rfl

/-! ## Integers -/

section

variable {w : Nat}

def IntUnary.eval : IntUnary → BitVec w → BitVec w
  | clz, a => a.clz
  | ctz, a => a.ctz
  | popcnt, a => a.cpop
  | extend low, a => (a.setWidth low).signExtend w

/-- Only the least integer divided by minus one has a quotient out of range. -/
def IntBinary.eval : IntBinary → BitVec w → BitVec w → Except Trap (BitVec w)
  | add, a, b => .ok (a + b)
  | sub, a, b => .ok (a - b)
  | mul, a, b => .ok (a * b)
  | divS, a, b =>
    if b = 0 then .error .integerDivisionByZero
    else if a = .intMin w ∧ b = .allOnes w then .error .integerOverflow
    else .ok (a.sdiv b)
  | divU, a, b => if b = 0 then .error .integerDivisionByZero else .ok (a / b)
  | remS, a, b => if b = 0 then .error .integerDivisionByZero else .ok (a.srem b)
  | remU, a, b => if b = 0 then .error .integerDivisionByZero else .ok (a % b)
  | and, a, b => .ok (a &&& b)
  | or, a, b => .ok (a ||| b)
  | xor, a, b => .ok (a ^^^ b)
  | shl, a, b => .ok (a <<< (b.toNat % w))
  | shrS, a, b => .ok (a.sshiftRight (b.toNat % w))
  | shrU, a, b => .ok (a >>> (b.toNat % w))
  | rotl, a, b => .ok (a.rotateLeft (b.toNat % w))
  | rotr, a, b => .ok (a.rotateRight (b.toNat % w))

def IntRelation.holds : IntRelation → BitVec w → BitVec w → Bool
  | eq, a, b => a = b
  | ne, a, b => a ≠ b
  | ltS, a, b => a.slt b
  | ltU, a, b => a < b
  | gtS, a, b => b.slt a
  | gtU, a, b => b < a
  | leS, a, b => a.sle b
  | leU, a, b => a ≤ b
  | geS, a, b => b.sle a
  | geU, a, b => b ≤ a

/-- The number that bits stand for. -/
def number (isSigned : Bool) (bits : BitVec w) : Int :=
  if isSigned then bits.toInt else bits.toNat

/-- The least and the greatest integer of a width. -/
def range (isSigned : Bool) (w : Nat) : Int × Int :=
  if isSigned then (-(1 <<< (w - 1)), 1 <<< (w - 1) - 1) else (0, 1 <<< w - 1)

end

/-! ## Between types -/

/-- The integer part of a float, in a range or saturating. What is not a number saturates to zero. -/
def truncate (isSigned saturates : Bool) (w : Nat) (bits : UInt64) : Except Trap (BitVec w) :=
  let (least, greatest) := range isSigned w
  match Binary64.ofBits bits with
  | .notANumber => if saturates then .ok 0 else .error .badConversionToInteger
  | .infinite negative =>
    if saturates then .ok (.ofInt w (if negative then least else greatest))
    else .error .integerOverflow
  | float => match float.truncate? with
    | none => .error .integerOverflow
    | some n =>
      if least ≤ n ∧ n ≤ greatest then .ok (.ofInt w n)
      else if saturates then .ok (.ofInt w (max least (min n greatest)))
      else .error .integerOverflow

/-! ## Instructions -/

/-- The result of an instruction with one operand; none if the operand is not of its type. -/
def UnaryOp.eval (op : UnaryOp) (a : Value) : Option (Except Trap Value) :=
  match op with
  | eqz t => ((NumType.int t).bits? a).map fun a => .ok (flag (a = 0))
  | int t op => ((NumType.int t).bits? a).map fun a => .ok ((NumType.int t).value (op.eval a))
  | float t op =>
    ((NumType.float t).bits? a).map fun a => .ok ((NumType.float t).value (op.eval t a))
  | wrap => ((NumType.int .i64).bits? a).map fun a => .ok ((NumType.int .i32).value (a.setWidth _))
  | widen isSigned => ((NumType.int .i32).bits? a).map fun a =>
    .ok ((NumType.int .i64).value (.ofInt _ (number isSigned a)))
  | truncate t isSigned source saturates => ((NumType.float source).bits? a).map fun a =>
    (Wasm.truncate isSigned saturates t.width (source.wide a)).map (NumType.int t).value
  | convert t source isSigned => ((NumType.int source).bits? a).map fun a =>
    .ok ((NumType.float t).value (t.ofInt (number isSigned a)))
  | demote => ((NumType.float .f64).bits? a).map fun a =>
    .ok ((NumType.float .f32).value (FloatType.demote a))
  | promote => ((NumType.float .f32).bits? a).map fun a =>
    .ok ((NumType.float .f64).value (FloatType.promote a))
  | floatBits source => ((NumType.float source).bits? a).map fun a =>
    .ok ((NumType.int source.int).value (a.cast source.width_int.symm))
  | ofBits t => ((NumType.int t.int).bits? a).map fun a =>
    .ok ((NumType.float t).value (a.cast t.width_int))

/-- The results of an operation on two values of one type; none if they are not of the type. -/
def NumType.lift (t : NumType) (a b : Value)
    (op : BitVec t.width → BitVec t.width → Except Trap Value) : Option (Except Trap Value) :=
  match t.bits? a, t.bits? b with
  | some a, some b => some (op a b)
  | _, _ => none

/-- The result of an instruction with two operands; none if they are not of its type. -/
def BinaryOp.eval (op : BinaryOp) (a b : Value) : Option (Except Trap Value) :=
  match op with
  | int t op => (NumType.int t).lift a b fun a b => (op.eval a b).map (NumType.int t).value
  | intTest t relation => (NumType.int t).lift a b fun a b => .ok (flag (relation.holds a b))
  | float t op =>
    (NumType.float t).lift a b fun a b => .ok ((NumType.float t).value (op.eval t a b))
  | floatTest t relation =>
    (NumType.float t).lift a b fun a b => .ok (flag (relation.holds t a b))

/-- The value that a load makes of the bytes it reads. -/
def LoadOp.value (op : LoadOp) (bytes : Bytes) : Value :=
  let read := BitVec.ofNat (8 * op.extent.bytes) (Bytes.toNatLE bytes)
  op.type.value (if op.isSigned then read.signExtend _ else read.setWidth _)

@[simp] theorem LoadOp.type_value (op : LoadOp) (bytes : Bytes) :
    (op.value bytes).type = op.type.valType := NumType.type_value ..

/-- The bytes that a store makes of its operand; none if it is not of its type. -/
def StoreOp.bytes? (op : StoreOp) (value : Value) : Option Bytes :=
  (op.type.bits? value).map fun bits => Bytes.ofNatLE op.extent.bytes bits.toNat

/-- A store writes something. -/
theorem StoreOp.ne_nil_of_bytes? {op : StoreOp} {value : Value} {bytes : Bytes}
    (h : op.bytes? value = some bytes) : bytes ≠ [] := by
  obtain ⟨bits, -, rfl⟩ := Option.map_eq_some_iff.1 h
  refine List.ne_nil_of_length_pos ?_
  rw [Bytes.length_ofNatLE]
  exact op.extent.bytes_pos

namespace ConstExpr

/-- The operands that instructions leave on a stack, topmost first; none if an operation does not
find two operands of its type there. -/
def evaluate? : List ConstInstr → List Value → Option (List Value)
  | [], stack => some stack
  | .const value :: rest, stack => evaluate? rest (value :: stack)
  | .binary op :: rest, b :: a :: stack => match op.eval a b with
    | some (.ok value) => evaluate? rest (value :: stack)
    | _ => none
  | .binary _ :: _, _ => none

/-- The one value that the expression leaves. -/
def value? (e : ConstExpr) : Option Value :=
  match evaluate? e.instrs [] with
  | some [value] => some value
  | _ => none

/-- A single constant is its own value. -/
@[simp] theorem value?_const (value : Value) : value? ⟨[.const value]⟩ = some value := rfl

/-- The type of the expression, if it is well typed. -/
def type? (e : ConstExpr) : Option ValType := e.value?.map Value.type

end ConstExpr

end SpiritHost.Wasm
