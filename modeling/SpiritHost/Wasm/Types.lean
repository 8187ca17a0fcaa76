/-!
# Wasm types and values

The types a module can name and the values that cross its boundary. The only reference a Spirit
can hold is the null one, so a reference value carries its type alone. Floats are kept as their
bits: a NaN passes through a Spirit unchanged.
-/

namespace SpiritHost.Wasm

/-- Reference types. -/
inductive RefType where
  | funcRef
  | externRef
deriving DecidableEq, Repr

/-- Value types. -/
inductive ValType where
  | i32
  | i64
  | f32
  | f64
  | ref (type : RefType)
deriving DecidableEq, Repr

/-- A numeric type, as opposed to a reference type. -/
def ValType.isNumeric : ValType → Bool
  | .ref _ => false
  | _ => true

/-- The name of a value type in messages. -/
def ValType.text : ValType → String
  | .i32 => "i32"
  | .i64 => "i64"
  | .f32 => "f32"
  | .f64 => "f64"
  | .ref .funcRef => "(ref null func)"
  | .ref .externRef => "(ref null extern)"

/-- Parameters and results of a function. -/
structure FuncType where
  params : List ValType
  results : List ValType
deriving DecidableEq, Repr

/-- The unit in which a memory grows, in bytes. -/
def pageSize : Nat := 65536

/-- The largest number of pages a memory may have. -/
def maxPages : Nat := 65536

/-- Bounds on a size, in pages or in table elements. -/
structure Limits where
  minimum : Nat
  maximum : Option Nat
deriving DecidableEq, Repr

/-- The type of a table. -/
structure TableType where
  element : RefType
  limits : Limits
deriving DecidableEq, Repr

/-- The type of a global variable. -/
structure GlobalType where
  value : ValType
  isMutable : Bool
deriving DecidableEq, Repr

/-- The type of anything a module imports or exports. -/
inductive ExternType where
  | func (type : FuncType)
  | table (type : TableType)
  | memory (limits : Limits)
  | global (type : GlobalType)
deriving DecidableEq, Repr

/-- The type of an exported function. -/
def ExternType.func? : ExternType → Option FuncType
  | .func type => some type
  | _ => none

/-- A Wasm value. -/
inductive Value where
  | i32 (word : UInt32)
  | i64 (word : UInt64)
  | f32 (bits : UInt32)
  | f64 (bits : UInt64)
  | null (type : RefType)
deriving DecidableEq, Repr

namespace Value

/-- The type of a value. -/
def type : Value → ValType
  | i32 _ => .i32
  | i64 _ => .i64
  | f32 _ => .f32
  | f64 _ => .f64
  | null t => .ref t

/-- What a variable of the type holds before it is set. -/
def zero : ValType → Value
  | .i32 => i32 0
  | .i64 => i64 0
  | .f32 => f32 0
  | .f64 => f64 0
  | .ref t => null t

@[simp] theorem type_zero (t : ValType) : (zero t).type = t := by
  cases t <;> rfl

/-- A value in messages: integers signed, floats as the number their bits spell. -/
def text : Value → String
  | i32 word => s!"I32({word.toInt32})"
  | i64 word => s!"I64({word.toInt64})"
  | f32 bits => s!"F32({bits})"
  | f64 bits => s!"F64({bits})"
  | null .funcRef => "FuncRef(None)"
  | null .externRef => "ExternRef(None)"

end Value

end SpiritHost.Wasm
