import SpiritHost.Proofs.Memory.Allocation

/-!
# Requests for regions

A request for a region looks at the cursor and at the limit of the memory, and at nothing else: heaps
that have these in common give the same answer, however large their memories have become
(`allocAligned_agrees`, `encodeString_agrees`). What is left of the heap is said in one way for every
kind of request (`Heap.Settles`).
-/

namespace SpiritHost

namespace Heap

open Wasm (pageSize)

variable {h k l : Heap} {size align : UInt32} {text : String}

/-- Heaps with room for the same regions: the cursors stand at the same place, and the memories may
grow to the same limit. -/
structure SameRoom (h k : Heap) : Prop where
  cursor : k.allocator.cursor = h.allocator.cursor
  limit : k.memory.limit = h.memory.limit

theorem SameRoom.refl (h : Heap) : h.SameRoom h := ⟨rfl, rfl⟩

theorem SameRoom.symm (hhk : h.SameRoom k) : k.SameRoom h := ⟨hhk.cursor.symm, hhk.limit.symm⟩

theorem SameRoom.trans (hhk : h.SameRoom k) (hkl : k.SameRoom l) : h.SameRoom l :=
  ⟨hkl.cursor.trans hhk.cursor, hkl.limit.trans hhk.limit⟩

theorem SameRoom.place_eq (hhk : h.SameRoom k) (align : UInt32) :
    k.allocator.place align = h.allocator.place align := by
  rw [Allocator.place, Allocator.place, hhk.cursor]

theorem SameRoom.finish_eq (hhk : h.SameRoom k) (size : Nat) (align : UInt32) :
    k.finish size align = h.finish size align := by
  rw [finish, finish, hhk.place_eq]

theorem SameRoom.room_iff (hhk : h.SameRoom k) {finish : Nat} : k.Room finish ↔ h.Room finish := by
  rw [Room, Room, hhk.limit]

/-! ## What a request leaves -/

/-- What a heap is once it was granted a region: the cursor stands at the region's end, and the memory
has grown by no more pages than the region needs. -/
structure Advances (h k : Heap) : Prop where
  cursor : h.allocator.cursor.toNat ≤ k.allocator.cursor.toNat
  base : k.allocator.base = h.allocator.base
  generation : k.allocator.generation = h.allocator.generation
  limit : k.memory.limit = h.memory.limit
  size : k.memory.size = max h.memory.size (wholePages k.allocator.cursor.toNat)

/-- A request comes to a region or to an allocation error. -/
inductive Settles (h : Heap) : Except Error (UInt32 × Heap) → Prop
  | granted {address : UInt32} {k : Heap} (advances : h.Advances k) : h.Settles (.ok (address, k))
  | refused (requested : UInt32) (needed : Nat) :
      h.Settles (.error (.allocation requested needed))

theorem cursor_le_finish (h : Heap) (size : Nat) (align : UInt32) :
    h.allocator.cursor.toNat ≤ h.finish size align :=
  Nat.le_trans (h.allocator.cursor_le_place align) (Nat.le_add_right _ _)

theorem Grants.advances {finish : Nat} (hgrants : h.Grants finish k)
    (hle : h.allocator.cursor.toNat ≤ finish) : h.Advances k :=
  ⟨hgrants.cursor ▸ hle, hgrants.base, hgrants.generation, hgrants.limit,
    hgrants.cursor.symm ▸ hgrants.size⟩

/-- To write into the region changes nothing about that. -/
theorem Advances.then_write {address : UInt32} {bytes : Bytes} (hadvances : h.Advances k)
    (hwrite : k.writeBytes address bytes = .ok l) : h.Advances l := by
  obtain ⟨hrewrites, -, -⟩ := writeBytes_eq_ok hwrite
  have hlimit := (moves_of_writeBytes hwrite).memory.limit
  have hsame := hrewrites.allocator
  refine ⟨?_, ?_, ?_, hlimit.trans hadvances.limit, ?_⟩
  · rw [hsame]
    exact hadvances.cursor
  · rw [hsame, hadvances.base]
  · rw [hsame, hadvances.generation]
  · rw [hsame, hrewrites.size, hadvances.size]

theorem settles_allocAligned (h : Heap) (size align : UInt32) :
    h.Settles (h.allocAligned size align) := by
  by_cases hroom : h.Room (h.finish size.toNat align)
  · obtain ⟨address, k, hok, -, hgrants, -⟩ := allocAligned_of_room hroom
    rw [hok]
    exact .granted (hgrants.advances (h.cursor_le_finish _ _))
  · rw [allocAligned_of_not_room hroom]
    exact .refused _ _

theorem settles_encodeString (h : Heap) (text : String) : h.Settles (h.encodeString text) := by
  by_cases hroom : h.Room (h.finish (storedSize text) 4)
  · obtain ⟨address, l, k, -, -, hgrants, hwrite, hok⟩ := encodeString_of_room hroom
    rw [hok]
    exact .granted ((hgrants.advances (h.cursor_le_finish _ _)).then_write hwrite)
  · obtain ⟨requested, needed, herror, -⟩ := encodeString_of_not_room hroom
    rw [herror]
    exact .refused _ _

/-! ## What decides the answer -/

/-- Two outcomes with the same answer, which leave room for the same regions. -/
def SameAnswer (x y : Except Error (UInt32 × Heap)) : Prop :=
  Except.Agrees (fun a b => b.1 = a.1 ∧ a.2.SameRoom b.2) x y

theorem SameAnswer.cases {x y : Except Error (UInt32 × Heap)} (h : SameAnswer x y) :
    (∃ e, x = .error e ∧ y = .error e) ∨
      ∃ address k l, x = .ok (address, k) ∧ y = .ok (address, l) ∧ k.SameRoom l := by
  cases h with
  | error e => exact .inl ⟨e, rfl, rfl⟩
  | @ok a b hab =>
    obtain ⟨address, k⟩ := a
    obtain ⟨address', l⟩ := b
    obtain ⟨haddress, hsame⟩ := hab
    cases haddress
    exact .inr ⟨_, k, l, rfl, rfl, hsame⟩

/-- **Allocations.** The cursor and the limit decide the answer. -/
theorem allocAligned_agrees (hhk : h.SameRoom k) (size align : UInt32) :
    SameAnswer (h.allocAligned size align) (k.allocAligned size align) := by
  have hfinish := hhk.finish_eq size.toNat align
  by_cases hroom : h.Room (h.finish size.toNat align)
  · have hroom' : k.Room (k.finish size.toNat align) := by
      rw [hfinish]
      exact hhk.room_iff.2 hroom
    obtain ⟨a, h', hok, ha, hgrants, -⟩ := allocAligned_of_room hroom
    obtain ⟨b, k', hok', hb, hgrants', -⟩ := allocAligned_of_room hroom'
    rw [hok, hok']
    refine .ok ⟨UInt32.toNat_inj.1 ?_, UInt32.toNat_inj.1 ?_, ?_⟩
    · rw [hb, ha, hhk.place_eq]
    · rw [hgrants'.cursor, hgrants.cursor, hfinish]
    · rw [hgrants'.limit, hgrants.limit, hhk.limit]
  · have hroom' : ¬k.Room (k.finish size.toNat align) := by
      rw [hfinish]
      exact mt hhk.room_iff.1 hroom
    rw [allocAligned_of_not_room hroom, allocAligned_of_not_room hroom', hfinish]
    exact .error _

/-- A string of a size that no allocation can be asked for is refused by every heap alike. -/
theorem encodeString_of_oversized (hsize : UInt32.size ≤ storedSize text) :
    ∃ e, ∀ h : Heap, h.encodeString text = .error e := by
  unfold encodeString
  dsimp only
  split
  · exact ⟨_, fun _ => rfl⟩
  · exact ⟨_, fun _ => if_pos hsize⟩

/-- **Strings.** So they do for the region of a string. -/
theorem encodeString_agrees (hhk : h.SameRoom k) (text : String) :
    SameAnswer (h.encodeString text) (k.encodeString text) := by
  rcases Nat.lt_or_ge (storedSize text) UInt32.size with hfits | hsize
  · have halloc := allocAligned_agrees hhk (stringSize text) 4
    by_cases hroom : h.Room (h.finish (storedSize text) 4)
    · have hroom' : k.Room (k.finish (storedSize text) 4) := by
        rw [hhk.finish_eq]
        exact hhk.room_iff.2 hroom
      obtain ⟨a, l, h', hok, -, -, hwrite, hencode⟩ := encodeString_of_room hroom
      obtain ⟨b, m, k', hok', -, -, hwrite', hencode'⟩ := encodeString_of_room hroom'
      rw [hok, hok'] at halloc
      rw [hencode, hencode']
      obtain ⟨haddress, hsame⟩ : b = a ∧ l.SameRoom m := by
        cases halloc with
        | ok hab => exact hab
      refine .ok ⟨haddress, ?_, ?_⟩
      · rw [(writeBytes_eq_ok hwrite').1.allocator, (writeBytes_eq_ok hwrite).1.allocator,
          hsame.cursor]
      · rw [(moves_of_writeBytes hwrite').memory.limit, (moves_of_writeBytes hwrite).memory.limit,
          hsame.limit]
    · have hroom' : ¬k.Room (k.finish (storedSize text) 4) := by
        rw [hhk.finish_eq]
        exact mt hhk.room_iff.1 hroom
      obtain ⟨_, _, herror, hrefused⟩ := encodeString_of_not_room hroom
      obtain ⟨_, _, herror', hrefused'⟩ := encodeString_of_not_room hroom'
      rw [hrefused hfits, hrefused' hfits] at halloc
      rw [herror, herror']
      cases halloc
      exact .error _
  · obtain ⟨e, herror⟩ := encodeString_of_oversized hsize
    rw [herror, herror]
    exact .error e

end Heap

end SpiritHost
