import SpiritHost.Gene.Layout
import SpiritHost.Memory.Allocator
import SpiritHost.Memory.Linear
import SpiritHost.Text.Utf8

/-!
# Heaps

A heap is a linear memory with the allocator that hands out its regions. Everything the host does
to a Spirit's memory is an operation on its heap: allocation, raw bytes, length-prefixed strings
and records. An operation that fails leaves the heap as it was, and one that only reads gives no
heap back. A string is stored as its length in four bytes followed by its UTF-8 bytes.
-/

namespace SpiritHost

open Wasm (pageSize)

/-- A memory and its allocator. -/
structure Heap where
  memory : LinearMemory
  allocator : Allocator

namespace Heap

/-- Pages to add so that a memory of `capacity` bytes reaches `needed` bytes. -/
def missingPages (capacity needed : Nat) : Nat := (needed - capacity + (pageSize - 1)) / pageSize

/-- Allocates a region (`MemoryManager::alloc_aligned`). The memory grows by whole pages if the
region ends past it. -/
def allocAligned (h : Heap) (size align : UInt32) : Except Error (UInt32 × Heap) := do
  let (address, finish) ← h.allocator.reserve size align
  let memory ←
    if h.memory.size < finish.toNat then
      match h.memory.grow? (missingPages h.memory.size finish.toNat) with
      | some grown => .ok grown
      | none => .error (.allocation size finish.toNat)
    else .ok h.memory
  .ok (address, ⟨memory, h.allocator.commit finish⟩)

/-- Allocates a region at the default alignment (`MemoryManager::alloc`). -/
def alloc (h : Heap) (size : UInt32) : Except Error (UInt32 × Heap) :=
  h.allocAligned size Allocator.defaultAlign

/-- Takes back every region at once (`MemoryManager::reset`). -/
def reset (h : Heap) : Heap := { h with allocator := h.allocator.reset }

/-- The bytes of a range (`MemoryManager::read_bytes`). -/
def readBytes (h : Heap) (address len : UInt32) : Except Error Bytes :=
  match h.memory.read? address.toNat len.toNat with
  | some bytes => .ok bytes
  | none => .error (.memoryAccess address len.toNat)

/-- Overwrites a range (`MemoryManager::write_bytes`). -/
def writeBytes (h : Heap) (address : UInt32) (bytes : Bytes) : Except Error Heap :=
  match h.memory.write? address.toNat bytes with
  | some memory => .ok { h with memory }
  | none => .error (.memoryAccess address bytes.length)

/-! ## Strings -/

/-- The text of a range (`MemoryManager::read_str`); ill-formed parts are replaced. -/
def readText (h : Heap) (address len : UInt32) : Except Error String := do
  .ok (Utf8.decodeLossy (← h.readBytes address len))

/-- Bytes in front of a string that hold its length. -/
def lengthSize : Nat := 4

/-- Allocates and writes a string (`MemoryManager::encode_string`); gives the address of its
length. -/
def encodeString (h : Heap) (text : String) : Except Error (UInt32 × Heap) := do
  let bytes := Utf8.encode text
  let needed := bytes.length + lengthSize
  if UInt32.size ≤ bytes.length then
    .error (.allocation (UInt32.ofNat (UInt32.size - 1)) needed)
  else if UInt32.size ≤ needed then
    .error (.allocation (UInt32.ofNat bytes.length) needed)
  else
    let (address, h) ← h.allocAligned (UInt32.ofNat needed) 4
    let h ← h.writeBytes address (Bytes.ofNatLE lengthSize bytes.length ++ bytes)
    .ok (address, h)

/-- The text of the string whose length is at the address (`MemoryManager::decode_string`). -/
def decodeString (h : Heap) (address : UInt32) : Except Error String := do
  let len := Bytes.toUInt32 (← h.readBytes address 4)
  if UInt32.size ≤ address.toNat + lengthSize then
    .error (.memoryAccess address (len.toNat + lengthSize))
  else h.readText (address + 4) len

/-! ## Records -/

/-- The value of a field at its address. A string field whose pointer is 0 is empty. -/
def readField (h : Heap) (type : FieldType) (address : UInt32) : Except Error FieldValue := do
  let bytes ← h.readBytes address type.size
  match type with
  | .i32 => .ok (.i32 (Bytes.toUInt32 bytes))
  | .i64 => .ok (.i64 (Bytes.toUInt64 bytes))
  | .f32 => .ok (.f32 (Bytes.toUInt32 bytes))
  | .f64 => .ok (.f64 (Bytes.toUInt64 bytes))
  | .bool => .ok (.bool (Bytes.toUInt32 bytes ≠ 0))
  | .string =>
    let pointer := Bytes.toUInt32 bytes
    if pointer = 0 then .ok (.text "") else .text <$> h.decodeString pointer

/-- The values of some of a gene's fields, added to a record. -/
def readFields (h : Heap) (g : GeneLayout) (address : UInt32) :
    List FieldLayout → Record → Except Error Record
  | [], r => .ok r
  | f :: rest, r => do
    let value ← h.readField f.type (← g.fieldAddress address f)
    h.readFields g address rest (r.insert f.name value)

/-- The values of a gene's fields (`MemoryManager::read_record`); the first field that cannot be
read decides the error. -/
def readRecord (h : Heap) (g : GeneLayout) (address : UInt32) : Except Error Record :=
  h.readFields g address g.fields []

/-- The bytes of a field, if the value is of its type. A string field takes an address. -/
def fieldBytes? : FieldType → FieldValue → Option Bytes
  | .i32, .i32 v => some (Bytes.ofUInt32 v)
  | .i64, .i64 v => some (Bytes.ofUInt64 v)
  | .f32, .f32 v => some (Bytes.ofUInt32 v)
  | .f64, .f64 v => some (Bytes.ofUInt64 v)
  | .bool, .bool v => some (Bytes.ofUInt32 (if v then 1 else 0))
  | .string, .address v => some (Bytes.ofUInt32 v)
  | _, _ => none

/-- The address and bytes of a field in a gene at an address. -/
def encodeField (g : GeneLayout) (address : UInt32) (r : Record) (f : FieldLayout) :
    Except Error (UInt32 × Bytes) := do
  let value ← match r.get? f.name with
    | some value => .ok value
    | none => .error (.field g.name f.name .missing)
  let fieldAt ← g.fieldAddress address f
  match fieldBytes? f.type value with
  | some bytes => .ok (fieldAt, bytes)
  | none => .error (.field g.name f.name (.mismatch f.type value.kind))

/-- Writes one range after the other. -/
def writeAll : List (UInt32 × Bytes) → Heap → Except Error Heap
  | [], h => .ok h
  | (address, bytes) :: rest, h => do writeAll rest (← h.writeBytes address bytes)

/-- Writes every field of a gene (`MemoryManager::write_record`). Each is checked before the first
byte is written. -/
def writeRecord (h : Heap) (g : GeneLayout) (address : UInt32) (r : Record) :
    Except Error Heap := do
  let encoded ← g.fields.mapM (encodeField g address r)
  if h.memory.size < address.toNat + g.size.toNat then
    .error (.memoryAccess address g.size.toNat)
  else writeAll encoded h

/-- Allocates room for one instance of a gene (`MemoryManager::alloc_record`). -/
def allocRecord (h : Heap) (g : GeneLayout) : Except Error (UInt32 × Heap) :=
  h.allocAligned g.size g.alignment

end Heap

end SpiritHost
