import SpiritHost.Error

/-!
# The bump allocator

Allocation moves a cursor forward and never back; nothing is freed by itself. A reset takes the
cursor back to the base and counts one more generation, so that whoever keeps an address can tell
that it has lapsed. The region below the base stays free, so that address 0 can mean "nothing".
-/

namespace SpiritHost

/-- The highest address of a 32-bit memory, plus one. -/
def addressSpace : Nat := 4294967296

/-- The least power of two that is not below a number. -/
def ceilPowerOfTwo (n : Nat) : Nat := if n ≤ 1 then 1 else 1 <<< ((n - 1).log2 + 1)

/-- The cursor of a heap. -/
structure Allocator where
  base : UInt32
  cursor : UInt32
  /-- Number of resets so far. A host counts them in 64 bits, and would panic at the reset after the
  last one that it can count; no run gets there. -/
  generation : Nat
deriving DecidableEq, Repr

namespace Allocator

/-- Where heaps begin unless told otherwise. -/
def defaultBase : UInt32 := 1024

/-- The alignment of allocations that ask for none. -/
def defaultAlign : UInt32 := 8

/-- A fresh allocator (`Allocator::new`). -/
def new (base : UInt32) : Allocator := ⟨base, base, 0⟩

/-- Address and end of the next allocation, which is not taken yet (`Allocator::reserve`). An
alignment that is no power of two is rounded up to one. (A host panics at one above `2 ^ 31`, since no
32-bit word holds the power; here it is rounded up all the same.) The cursor is a 32-bit word, so the
end must be below `2 ^ 32`. -/
def reserve (a : Allocator) (size align : UInt32) : Except Error (UInt32 × UInt64) :=
  let mask : UInt64 := UInt64.ofNat (ceilPowerOfTwo align.toNat) - 1
  let address := (a.cursor.toUInt64 + mask) &&& ~~~mask
  let finish := address + size.toUInt64
  if addressSpace ≤ finish.toNat then .error (.allocation size finish.toNat)
  else .ok (address.toUInt32, finish)

/-- Moves the cursor to the end of a reservation, unless that would take it back
(`Allocator::commit`). -/
def commit (a : Allocator) (finish : UInt64) : Allocator :=
  if finish.toNat < addressSpace then { a with cursor := max a.cursor finish.toUInt32 } else a

/-- Reclaims the whole heap (`Allocator::reset`). -/
def reset (a : Allocator) : Allocator := { a with cursor := a.base, generation := a.generation + 1 }

/-- The allocator on one line. -/
def describe (a : Allocator) : String :=
  s!"Allocator \x7b base: {a.base}, cursor: {a.cursor}, generation: {a.generation} \x7d"

end Allocator

end SpiritHost
