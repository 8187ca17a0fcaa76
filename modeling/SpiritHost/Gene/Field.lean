/-!
# Fields of a gene

A gene is a record of fixed shape in a Spirit's memory. Each field has a type, which fixes how many
bytes it takes and where it may stand; a value of a string field is decoded text when it was read
and the address of a string encoded beforehand when it is to be written.
-/

namespace SpiritHost

/-- The type of a field. A flag is kept as a 32-bit integer, a string as the address of its
length-prefixed bytes. -/
inductive FieldType where
  | i32
  | i64
  | f32
  | f64
  | bool
  | string
deriving DecidableEq, Repr

namespace FieldType

/-- Bytes that a field takes (`FieldType::size`). -/
def size : FieldType → UInt32
  | i32 | f32 | bool | string => 4
  | i64 | f64 => 8

/-- Fields are naturally aligned (`FieldType::alignment`). -/
def alignment (t : FieldType) : UInt32 := t.size

/-- The type's name in messages. -/
def text : FieldType → String
  | i32 => "i32"
  | i64 => "i64"
  | f32 => "f32"
  | f64 => "f64"
  | bool => "bool"
  | string => "string"

end FieldType

/-- The value of a field. Floats are kept as their bits. -/
inductive FieldValue where
  | i32 (word : UInt32)
  | i64 (word : UInt64)
  | f32 (bits : UInt32)
  | f64 (bits : UInt64)
  | bool (value : Bool)
  /-- A string as read. -/
  | text (value : String)
  /-- The address of a string to be stored. -/
  | address (value : UInt32)
deriving DecidableEq, Repr

/-- What a value is, apart from which. -/
inductive FieldKind where
  | i32
  | i64
  | f32
  | f64
  | bool
  | text
  | address
deriving DecidableEq, Repr

/-- The kind's name in messages. -/
def FieldKind.name : FieldKind → String
  | i32 => "i32"
  | i64 => "i64"
  | f32 => "f32"
  | f64 => "f64"
  | bool => "bool"
  | text => "decoded string"
  | address => "string address"

/-- The kind of a value (`FieldValue::kind`). -/
def FieldValue.kind : FieldValue → FieldKind
  | i32 _ => .i32
  | i64 _ => .i64
  | f32 _ => .f32
  | f64 _ => .f64
  | bool _ => .bool
  | text _ => .text
  | address _ => .address

end SpiritHost
