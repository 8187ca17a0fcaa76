import Mathlib.Order.Bounds.Defs
import SpiritHost.Proofs.Memory.Strings

/-!
# Exact allocation

Where the next region starts, when there is room for it, and what a heap is once it was granted. A
region that there is no room for is refused by one error and nothing else happens
(`Heap.allocAligned_of_room`, `Heap.allocAligned_of_not_room`). A string is encoded exactly if there
is room for it with its length: once its region is allocated, nothing can fail
(`Heap.encodeString_of_room`).
-/

namespace SpiritHost

open Wasm (pageSize)

/-! ## Places -/

/-- A region starts at a place: at the least multiple, not below the cursor, of the least power of two
that is not below the alignment. To align at 0 is to align at 1. -/
def Allocator.StartsAt (cursor align place : Nat) : Prop :=
  ∃ p, IsLeast {q | max align 1 ≤ q ∧ ∃ k, q = 2 ^ k} p ∧ IsLeast {a | cursor ≤ a ∧ p ∣ a} place

theorem Allocator.startsAt_place (a : Allocator) (align : UInt32) :
    StartsAt a.cursor.toNat align.toNat (a.place align) := by
  have hpos := Nat.two_pow_pos (Nat.clog 2 align.toNat)
  have hle := Nat.le_pow_clog (b := 2) (by decide) align.toNat
  refine ⟨2 ^ Nat.clog 2 align.toNat, ⟨⟨by omega, _, rfl⟩, ?_⟩, ?_, ?_⟩
  · rintro q ⟨hq, k, rfl⟩
    exact Nat.pow_le_pow_right (by decide) (Nat.clog_le_of_le_pow (by omega))
  · exact ⟨a.cursor_le_place align, a.dvd_place align⟩
  · rintro x ⟨hx, hdvd⟩
    exact roundUp_le hx hdvd

/-- A region that ends in the address space is reserved at the next place, -/
theorem Allocator.reserve_of_lt {a : Allocator} {size align : UInt32}
    (hlt : a.place align + size.toNat < addressSpace) :
    ∃ start finish, a.reserve size align = .ok (start, finish) ∧
      start.toNat = a.place align ∧ finish.toNat = a.place align + size.toNat := by
  refine ⟨_, _, (a.reserve_eq size align).trans (if_neg (Nat.not_le.2 hlt)), ?_, ?_⟩
  · exact UInt32.toNat_ofNat_of_lt' (Nat.lt_of_le_of_lt (Nat.le_add_right _ _) hlt)
  · exact UInt64.toNat_ofNat_of_lt' (Nat.lt_of_lt_of_le hlt (by decide))

/-- and no other is reserved. -/
theorem Allocator.reserve_of_le {a : Allocator} {size align : UInt32}
    (hle : addressSpace ≤ a.place align + size.toNat) :
    a.reserve size align = .error (.allocation size (a.place align + size.toNat)) :=
  (a.reserve_eq size align).trans (if_pos hle)

/-- The least whole number of pages that holds so many bytes, in bytes. -/
def wholePages (bytes : Nat) : Nat := (bytes + (pageSize - 1)) / pageSize * pageSize

/-! ## Memories -/

namespace LinearMemory

variable {m n : LinearMemory}

/-- Outside a memory there is nothing, so what it grows by is zero. -/
theorem byte_eq_zero {a : Nat} (h : m.size ≤ a) : m.byte a = 0 := by
  have hnew : a ∉ m.cells := fun hmem => Nat.not_lt.2 h (m.lt_of_mem_cells a hmem)
  exact Std.TreeMap.getD_eq_fallback hnew

/-- A memory grows by the missing pages if its limit allows it to hold what is needed, -/
theorem grow?_missing {needed : Nat} (hlt : m.size < needed) (hle : needed ≤ m.limit * pageSize) :
    ∃ n, m.grow? (Heap.missingPages m.size needed) = some n ∧
      n.size = max m.size (wholePages needed) := by
  simp only [size, pageSize] at hlt hle
  have hfits : m.pages + Heap.missingPages m.size needed ≤ m.limit := by
    simp only [Heap.missingPages, size, pageSize]
    omega
  refine ⟨_, dif_pos hfits, ?_⟩
  simp only [size, Heap.missingPages, wholePages, pageSize]
  omega

/-- and only then. -/
theorem grow?_missing_eq_none {needed : Nat} (hlt : m.limit * pageSize < needed) :
    m.grow? (Heap.missingPages m.size needed) = none := by
  have hlimit := m.pages_le_limit
  refine dif_neg ?_
  simp only [size, Heap.missingPages, pageSize] at hlt ⊢
  omega

end LinearMemory

/-! ## Allocating -/

namespace Heap

variable {h k : Heap} {size align : UInt32} {text : String}

/-- There is room for a region that ends at an address: the cursor can go there, and the memory is
allowed to reach so far. -/
def Room (h : Heap) (finish : Nat) : Prop :=
  finish < addressSpace ∧ finish ≤ h.memory.limit * pageSize

/-- What a heap is once it was granted a region that ends at an address. -/
structure Grants (h : Heap) (finish : Nat) (k : Heap) : Prop where
  cursor : k.allocator.cursor.toNat = finish
  base : k.allocator.base = h.allocator.base
  generation : k.allocator.generation = h.allocator.generation
  limit : k.memory.limit = h.memory.limit
  /-- The memory grows by no more pages than the region needs. -/
  size : k.memory.size = max h.memory.size (wholePages finish)
  old : ∀ a < h.memory.size, k.memory.byte a = h.memory.byte a
  fresh : ∀ a, h.memory.size ≤ a → k.memory.byte a = 0

/-- Where the next region of a size ends. -/
def finish (h : Heap) (size : Nat) (align : UInt32) : Nat := h.allocator.place align + size

theorem wholePages_le_size {finish : Nat} (h : finish ≤ k.memory.size) :
    wholePages finish ≤ k.memory.size := by
  simp only [wholePages, LinearMemory.size, pageSize] at h ⊢
  omega

theorem grants_commit {finish : UInt64} {memory : LinearMemory}
    (hle : h.allocator.cursor.toNat ≤ finish.toNat) (hlt : finish.toNat < addressSpace)
    (hlimit : memory.limit = h.memory.limit)
    (hsize : memory.size = max h.memory.size (wholePages finish.toNat))
    (hbyte : ∀ a, memory.byte a = h.memory.byte a) :
    h.Grants finish.toNat ⟨memory, h.allocator.commit finish⟩ := by
  refine ⟨?_, by simp, by simp, hlimit, hsize, fun a _ => hbyte a, fun a ha => ?_⟩
  · have hcursor := h.allocator.cursor_commit hle hlt
    rw [UInt64.ofNat_toNat] at hcursor
    exact hcursor
  · exact (hbyte a).trans (LinearMemory.byte_eq_zero ha)

/-- **Granted.** A region that there is room for is allocated at the next place. -/
theorem allocAligned_of_room (hroom : h.Room (h.finish size.toNat align)) :
    ∃ address k, h.allocAligned size align = .ok (address, k) ∧
      address.toNat = h.allocator.place align ∧ h.Grants (h.finish size.toNat align) k ∧
      (h.finish size.toNat align = 0 → k.memory = h.memory) := by
  obtain ⟨start, finish, hreserve, hstart, hfinish⟩ := Allocator.reserve_of_lt hroom.1
  have hle : h.allocator.cursor.toNat ≤ finish.toNat := by
    rw [hfinish]
    exact Nat.le_trans (h.allocator.cursor_le_place align) (Nat.le_add_right _ _)
  rw [Heap.finish, ← hfinish] at hroom ⊢
  by_cases hsize : h.memory.size < finish.toNat
  · obtain ⟨grown, hgrow, hgrown⟩ := LinearMemory.grow?_missing hsize hroom.2
    refine ⟨start, ⟨grown, h.allocator.commit finish⟩, ?_, hstart,
      grants_commit hle hroom.1 ?_ hgrown fun a => ?_, ?_⟩
    · refine Except.bind_eq_ok_iff.2 ⟨(start, finish), hreserve, ?_⟩
      dsimp only
      rw [if_pos hsize, hgrow]
      rfl
    · exact (LinearMemory.grow?_eq_some hgrow).1
    · exact LinearMemory.byte_of_grow? hgrow a
    · omega
  · have hpages := wholePages_le_size (Nat.le_of_not_lt hsize)
    refine ⟨start, ⟨h.memory, h.allocator.commit finish⟩, ?_, hstart,
      grants_commit hle hroom.1 rfl (Nat.max_eq_left hpages).symm fun _ => rfl, fun _ => rfl⟩
    exact Except.bind_eq_ok_iff.2 ⟨(start, finish), hreserve, if_neg hsize⟩

/-- **Refused.** A region that there is no room for is not allocated. -/
theorem allocAligned_of_not_room (hroom : ¬h.Room (h.finish size.toNat align)) :
    h.allocAligned size align = .error (.allocation size (h.finish size.toNat align)) := by
  by_cases hspace : h.finish size.toNat align < addressSpace
  · obtain ⟨start, finish, hreserve, -, hfinish⟩ := Allocator.reserve_of_lt hspace
    rw [Heap.finish, ← hfinish] at hroom hspace ⊢
    have hlimit : h.memory.limit * pageSize < finish.toNat :=
      Nat.lt_of_not_le fun hle => hroom ⟨hspace, hle⟩
    have hsize : h.memory.size < finish.toNat :=
      Nat.lt_of_le_of_lt h.memory.size_le_limit hlimit
    refine Except.bind_eq_error_iff.2 (.inr ⟨(start, finish), hreserve, ?_⟩)
    dsimp only
    rw [if_pos hsize, LinearMemory.grow?_missing_eq_none hlimit]
    rfl
  · exact Except.bind_eq_error_iff.2
      (.inl (Allocator.reserve_of_le (Nat.le_of_not_lt hspace)))

/-! ## Encoding -/

/-- A range that a memory holds can be written. -/
theorem writeBytes_of_le {address : UInt32} {bytes : Bytes}
    (hle : address.toNat + bytes.length ≤ h.memory.size) :
    ∃ k, h.writeBytes address bytes = .ok k := by
  unfold writeBytes LinearMemory.write?
  rw [dif_pos hle]
  exact ⟨_, rfl⟩

/-- Bytes that a string takes with its length in front. -/
def storedSize (text : String) : Nat := Utf8.size text + lengthSize

theorem encodeString_of_fits (hfits : storedSize text < UInt32.size) :
    h.encodeString text = (do
      let (address, l) ← h.allocAligned (stringSize text) 4
      let k ← l.writeBytes address (stored text)
      .ok (address, k)) := by
  unfold encodeString
  dsimp only
  rw [if_neg, if_neg]
  · rfl
  · exact Nat.not_le.2 hfits
  · exact Nat.not_le.2 (Nat.lt_of_le_of_lt (Nat.le_add_right _ _) hfits)

/-- **Encoding.** Once the region is allocated the string is written. -/
theorem encodeString_of_room (hroom : h.Room (h.finish (storedSize text) 4)) :
    ∃ address l k, h.allocAligned (stringSize text) 4 = .ok (address, l) ∧
      address.toNat = h.allocator.place 4 ∧ h.Grants (h.finish (storedSize text) 4) l ∧
      l.writeBytes address (stored text) = .ok k ∧ h.encodeString text = .ok (address, k) := by
  have hfits : storedSize text < UInt32.size :=
    Nat.lt_of_le_of_lt (Nat.le_add_left _ _) hroom.1
  have hsize : (stringSize text).toNat = storedSize text := toNat_stringSize hfits
  rw [← hsize] at hroom ⊢
  obtain ⟨address, l, halloc, haddress, hgrants, -⟩ := allocAligned_of_room hroom
  have hinside : address.toNat + (stored text).length ≤ l.memory.size := by
    rw [length_stored, Nat.add_comm lengthSize, ← storedSize, ← hsize]
    exact (moves_of_allocAligned halloc).inside _ rfl
  obtain ⟨k, hwrite⟩ := writeBytes_of_le hinside
  refine ⟨address, l, k, halloc, haddress, hgrants, hwrite, ?_⟩
  rw [encodeString_of_fits hfits]
  exact Except.bind_eq_ok_iff.2 ⟨(address, l), halloc,
    Except.bind_eq_ok_iff.2 ⟨k, hwrite, rfl⟩⟩

/-- A string that there is no room for is not encoded. -/
theorem encodeString_of_not_room (hroom : ¬h.Room (h.finish (storedSize text) 4)) :
    ∃ requested needed, h.encodeString text = .error (.allocation requested needed) ∧
      (storedSize text < UInt32.size →
        h.allocAligned (stringSize text) 4 = .error (.allocation requested needed)) := by
  by_cases hfits : storedSize text < UInt32.size
  · have hsize : (stringSize text).toNat = storedSize text := toNat_stringSize hfits
    rw [← hsize] at hroom
    have hrefused := allocAligned_of_not_room hroom
    refine ⟨_, _, ?_, fun _ => hrefused⟩
    rw [encodeString_of_fits hfits, hrefused]
    rfl
  · unfold encodeString
    dsimp only
    split
    · exact ⟨_, _, rfl, fun h => absurd h hfits⟩
    · rw [if_pos (show UInt32.size ≤ (Utf8.encode text).length + lengthSize from
        Nat.le_of_not_lt hfits)]
      exact ⟨_, _, rfl, fun h => absurd h hfits⟩

end Heap

end SpiritHost
