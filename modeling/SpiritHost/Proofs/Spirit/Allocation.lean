import SpiritHost.Proofs.Memory.Allocation
import SpiritHost.Proofs.Spirit.Strings

/-!
# Exact allocation by the holder

What a Spirit's holder gets from an allocation is decided by the cursor, the size and the limit of
the memory alone (`allocation_exact`): either the region that starts at the next place, or an error
and the heap as it was. A string is written exactly if its region is granted.
-/

namespace SpiritHost

namespace Spirit

open Heap (lengthSize storedSize stringSize stored)

variable {s : Spirit} {size align : UInt32} {text : String} {place : Nat}

/-! ## Heaps of Spirits -/

/-- A heap that is put in place is the one found there, unless it has a memory where there is none. -/
theorem heap_of_onHeap {α : Type} (operation : Heap → Except Error (α × Heap)) {a : α} {k : Heap}
    (hok : operation s.heap = .ok (a, k)) (hs : ¬s.Attached → k.memory = s.heap.memory) :
    (s.onHeap operation).state.heap = k := by
  rw [(onHeap_of_ok operation hok).2]
  by_cases hattached : s.Attached
  · exact Store.heapAt_setHeapAt hattached k
  · have hlength : s.store.memories.length ≤ s.manager := Nat.not_lt.1 hattached
    have hmemory : ((s.store.setHeapAt s.manager k).heapAt s.manager).memory = k.memory := by
      rw [hs hattached, memory_of_detached hattached]
      simp [Store.heapAt, Store.memory, Store.setHeapAt, Store.setMemory,
        List.getD_eq_getElem?_getD, hlength]
    exact congrArg (Heap.mk · k.allocator) hmemory

theorem onHeap_of_error {α : Type} (operation : Heap → Except Error (α × Heap)) {e : Error}
    (herror : operation s.heap = .error e) :
    (s.onHeap operation).result = .error e ∧ (s.onHeap operation).state.heap = s.heap := by
  unfold onHeap
  rw [herror]
  exact ⟨rfl, rfl⟩

/-! ## Allocations -/

/-- What an allocation does: if there is room for the region it is granted, and otherwise the error
says where it would have ended and nothing happens. -/
structure Allocates (s : Spirit) (size align : UInt32) (place : Nat) : Prop where
  granted : s.heap.Room (place + size.toNat) → ∃ address,
    (s.allocAligned size align).result = .ok address ∧ address.toNat = place ∧
      s.heap.Grants (place + size.toNat) (s.allocAligned size align).state.heap
  refused : ¬s.heap.Room (place + size.toNat) →
    (s.allocAligned size align).result = .error (.allocation size (place + size.toNat)) ∧
      (s.allocAligned size align).state.heap = s.heap

theorem allocates_place (s : Spirit) (size align : UInt32) :
    s.Allocates size align (s.heap.allocator.place align) := by
  refine ⟨fun hroom => ?_, fun hroom => ?_⟩
  · obtain ⟨address, k, hok, haddress, hgrants, hempty⟩ := Heap.allocAligned_of_room hroom
    have hdetached : ¬s.Attached → k.memory = s.heap.memory := by
      intro hs
      have hlimit := hroom.2
      rw [memory_of_detached hs] at hlimit
      exact hempty (Nat.le_zero.1 hlimit)
    refine ⟨address, (onHeap_of_ok (·.allocAligned size align) hok).1, haddress, ?_⟩
    rw [allocAligned, heap_of_onHeap (·.allocAligned size align) hok hdetached]
    exact hgrants
  · exact onHeap_of_error (·.allocAligned size align) (Heap.allocAligned_of_not_room hroom)

/-! ## Strings -/

/-- What writing a string does: if there is room for the region of the string, it is allocated and the
string is written there. Otherwise the error is that of the allocation and nothing happens; a size that
no allocation can be asked for counts as one that there is no room for. -/
structure Encodes (s : Spirit) (text : String) (place : Nat) : Prop where
  written : s.heap.Room (place + storedSize text) → ∃ address,
    (s.allocAligned (stringSize text) 4).result = .ok address ∧
      (s.writeString text).result = .ok address ∧
      (s.allocAligned (stringSize text) 4).state.heap.writeBytes address (stored text) =
        .ok (s.writeString text).state.heap
  refused : ¬s.heap.Room (place + storedSize text) → ∃ e,
    (s.writeString text).result = .error e ∧ (s.writeString text).state.heap = s.heap ∧
      (storedSize text < UInt32.size → (s.allocAligned (stringSize text) 4).result = .error e)

theorem encodes_place (s : Spirit) (text : String) :
    s.Encodes text (s.heap.allocator.place 4) := by
  refine ⟨fun hroom => ?_, fun hroom => ?_⟩
  · obtain ⟨address, l, k, halloc, -, -, hwrite, hok⟩ := Heap.encodeString_of_room hroom
    have hs : ¬¬s.Attached := not_not_intro (attached_of_encodeString hok)
    refine ⟨address, (onHeap_of_ok (·.allocAligned (stringSize text) 4) halloc).1,
      (onHeap_of_ok (·.encodeString text) hok).1, ?_⟩
    rw [allocAligned, writeString,
      heap_of_onHeap (·.allocAligned (stringSize text) 4) halloc fun h => absurd h hs,
      heap_of_onHeap (·.encodeString text) hok fun h => absurd h hs]
    exact hwrite
  · obtain ⟨requested, needed, herror, halloc⟩ := Heap.encodeString_of_not_room hroom
    obtain ⟨hresult, hheap⟩ := onHeap_of_error (·.encodeString text) herror
    refine ⟨_, hresult, hheap, fun hfits => ?_⟩
    exact (onHeap_of_error (·.allocAligned (stringSize text) 4) (halloc hfits)).1

/-! ## Both -/

/-- **Exact allocation.** The next region starts at the least multiple, not below the cursor, of the
alignment rounded up to a power of two. It is granted exactly if it ends below `2 ^ 32` and within the
limit of the memory, which then grows by no more pages than needed. Writing a string fails exactly if
allocating its region does: once the region is there, nothing can go wrong. -/
theorem allocation_exact (s : Spirit) :
    (∀ size align : UInt32, ∃ place,
      Allocator.StartsAt s.heap.allocator.cursor.toNat align.toNat place ∧
        s.Allocates size align place) ∧
    ∀ text : String, ∃ place,
      Allocator.StartsAt s.heap.allocator.cursor.toNat 4 place ∧ s.Encodes text place :=
  ⟨fun size align => ⟨_, s.heap.allocator.startsAt_place align, s.allocates_place size align⟩,
    fun text => ⟨_, s.heap.allocator.startsAt_place 4, s.encodes_place text⟩⟩

/-- The last page of the limit is used up to its end, and an empty region still finds a place there,
but none of one byte. -/
example :
    let full := (codeless.allocAligned 195584 1).state
    (full.alloc 0).result.toOption = some 196608 ∧ (full.alloc 1).result.toOption = none := by
  decide +kernel

end Spirit

end SpiritHost
