import Std.Data.TreeMap
import SpiritHost.Bytes
import SpiritHost.Wasm.Types

/-!
# Linear memory

A memory is a whole number of pages, each byte zero until it is written. Only written bytes are
kept. A memory never shrinks; it grows by whole pages up to its limit, and an access that is not
inside it changes nothing (`write?`, `grow?` give no memory then).
-/

namespace SpiritHost

open Wasm (pageSize maxPages)

/-- A linear memory. The bytes kept lie inside it, so what it grows by reads as zero. -/
structure LinearMemory where
  pages : Nat
  /-- The number of pages it may grow to. -/
  limit : Nat
  /-- The bytes written so far, by address. -/
  cells : Std.TreeMap Nat UInt8
  pages_le_limit : pages ≤ limit
  limit_le_maxPages : limit ≤ maxPages
  lt_of_mem_cells : ∀ a ∈ cells, a < pages * pageSize

namespace LinearMemory

/-- A memory of zeros, if its bounds are in order and fit the address space. -/
def create? (minimum limit : Nat) : Option LinearMemory :=
  if h : minimum ≤ limit ∧ limit ≤ maxPages then
    some ⟨minimum, limit, ∅, h.1, h.2, by simp⟩
  else none

/-- The memory that has no byte and cannot grow, which stands for one that is not there. -/
def absent : LinearMemory := ⟨0, 0, ∅, by decide, by decide, by simp⟩

instance : Inhabited LinearMemory := ⟨absent⟩

/-- Size in bytes. -/
def size (m : LinearMemory) : Nat := m.pages * pageSize

/-- The byte at an address. -/
def byte (m : LinearMemory) (address : Nat) : UInt8 := m.cells.getD address 0

/-- The bytes of a range, if it lies inside the memory. -/
def read? (m : LinearMemory) (address len : Nat) : Option Bytes :=
  if address + len ≤ m.size then some ((List.range len).map fun i => m.byte (address + i))
  else none

/-- The cells with bytes written from an address on. -/
def put : Std.TreeMap Nat UInt8 → Nat → Bytes → Std.TreeMap Nat UInt8
  | cells, _, [] => cells
  | cells, address, b :: rest => put (cells.insert address b) (address + 1) rest

theorem lt_of_mem_put {cells : Std.TreeMap Nat UInt8} {address bound : Nat} {bytes : Bytes}
    (inside : ∀ a ∈ cells, a < bound) (fits : address + bytes.length ≤ bound) :
    ∀ a ∈ put cells address bytes, a < bound := by
  induction bytes generalizing cells address with
  | nil => exact inside
  | cons b rest ih =>
    simp only [List.length_cons] at fits
    refine ih (fun a ha => ?_) (by omega)
    rcases Std.TreeMap.mem_insert.1 ha with h | h
    · have : address = a := Std.LawfulEqCmp.eq_of_compare h
      omega
    · exact inside a h

/-- The memory with bytes written from an address on, if they fit. -/
def write? (m : LinearMemory) (address : Nat) (bytes : Bytes) : Option LinearMemory :=
  if h : address + bytes.length ≤ m.size then
    some { m with
      cells := put m.cells address bytes
      lt_of_mem_cells := lt_of_mem_put m.lt_of_mem_cells h }
  else none

/-- The memory with more pages, if its limit allows them. -/
def grow? (m : LinearMemory) (more : Nat) : Option LinearMemory :=
  if h : m.pages + more ≤ m.limit then
    some { m with
      pages := m.pages + more
      pages_le_limit := h
      lt_of_mem_cells := fun a ha =>
        Nat.lt_of_lt_of_le (m.lt_of_mem_cells a ha) (Nat.mul_le_mul_right _ (Nat.le_add_right ..)) }
  else none

end LinearMemory

end SpiritHost
