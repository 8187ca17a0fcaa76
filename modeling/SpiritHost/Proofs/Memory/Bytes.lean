import SpiritHost.Proofs.Memory.Moves

/-!
# The bytes of a memory

A memory is seen through its bytes: `slice` is what a read gives, a write replaces the bytes of one
range and no other, and the pages that a memory grows by leave every byte what it was. From there on
neither reading nor decoding is opened: `readBytes_eq` and `decodeString_eq` say all of them.
-/

namespace SpiritHost

namespace LinearMemory

variable {m n : LinearMemory} {address len : Nat} {bytes : Bytes}

/-- The bytes of a range. -/
def slice (m : LinearMemory) (address len : Nat) : Bytes :=
  (List.range len).map fun i => m.byte (address + i)

@[simp] theorem length_slice (m : LinearMemory) (address len : Nat) :
    (m.slice address len).length = len := by
  simp [slice]

theorem slice_congr (h : ∀ a, address ≤ a → a < address + len → n.byte a = m.byte a) :
    n.slice address len = m.slice address len := by
  refine List.map_congr_left fun i hi => ?_
  have := List.mem_range.1 hi
  exact h _ (by omega) (by omega)

theorem slice_add (m : LinearMemory) (address k l : Nat) :
    m.slice address (k + l) = m.slice address k ++ m.slice (address + k) l := by
  simp [slice, List.range_add, Nat.add_assoc]

theorem read?_eq (m : LinearMemory) (address len : Nat) :
    m.read? address len =
      if address + len ≤ m.size then some (m.slice address len) else none := rfl

/-! ## Writing -/

theorem getD_put (a : Nat) : ∀ (bytes : Bytes) (cells : Std.TreeMap Nat UInt8) (address : Nat),
    (put cells address bytes).getD a 0 =
      if address ≤ a ∧ a < address + bytes.length then bytes.getD (a - address) 0
      else cells.getD a 0
  | [], cells, address => by
    rw [if_neg (by simp)]
    rfl
  | b :: rest, cells, address => by
    have hkey : compare address a = .eq ↔ address = a := Nat.compare_eq_eq
    rw [put, getD_put a rest, Std.TreeMap.getD_insert, List.length_cons]
    simp only [hkey]
    by_cases hfirst : address = a
    · subst hfirst
      simp
    · rw [if_neg hfirst]
      by_cases hin : address + 1 ≤ a ∧ a < address + 1 + rest.length
      · have hsub : a - address = a - (address + 1) + 1 := by omega
        rw [if_pos hin, if_pos (by omega), hsub, List.getD_cons_succ]
      · rw [if_neg hin, if_neg (by omega)]

theorem write?_eq_some (h : m.write? address bytes = some n) :
    address + bytes.length ≤ m.size ∧ n.size = m.size ∧
      ∀ a, n.byte a =
        if address ≤ a ∧ a < address + bytes.length then bytes.getD (a - address) 0
        else m.byte a := by
  unfold write? at h
  split at h
  · rename_i hfits
    cases h
    exact ⟨hfits, rfl, fun a => getD_put a bytes m.cells address⟩
  · cases h

/-- A write changes no byte outside its range. -/
theorem byte_of_write? (h : m.write? address bytes = some n) {a : Nat}
    (ha : ¬(address ≤ a ∧ a < address + bytes.length)) : n.byte a = m.byte a := by
  rw [(write?_eq_some h).2.2 a, if_neg ha]

/-- What was written is there. -/
theorem slice_of_write? (h : m.write? address bytes = some n) :
    n.slice address bytes.length = bytes := by
  refine List.ext_getElem (by simp) fun i hi hlt => ?_
  have hbyte := (write?_eq_some h).2.2 (address + i)
  rw [if_pos (by omega), Nat.add_sub_cancel_left] at hbyte
  simpa [slice, List.getD_eq_getElem?_getD, hlt] using hbyte

theorem byte_of_grow? {more : Nat} (h : m.grow? more = some n) (a : Nat) : n.byte a = m.byte a := by
  unfold grow? at h
  split at h
  · cases h; rfl
  · cases h

end LinearMemory

namespace Heap

variable {h k : Heap} {address len : UInt32}

theorem readBytes_eq (h : Heap) (address len : UInt32) :
    h.readBytes address len =
      if address.toNat + len.toNat ≤ h.memory.size then
        .ok (h.memory.slice address.toNat len.toNat)
      else .error (.memoryAccess address len.toNat) := by
  rw [readBytes, LinearMemory.read?_eq]
  by_cases hfits : address.toNat + len.toNat ≤ h.memory.size
  · rw [if_pos hfits, if_pos hfits]
  · rw [if_neg hfits, if_neg hfits]

/-- A range lies in the memory of record. -/
def Has (h : Heap) (address len : UInt32) : Prop := address.toNat + len.toNat ≤ h.memory.size

/-- What a range reads as. -/
def lossyText (h : Heap) (address len : UInt32) : String :=
  Utf8.decodeLossy (h.memory.slice address.toNat len.toNat)

theorem readBytes_of_has (hhas : h.Has address len) :
    h.readBytes address len = .ok (h.memory.slice address.toNat len.toNat) :=
  (h.readBytes_eq address len).trans (if_pos hhas)

theorem readBytes_of_not_has (hhas : ¬h.Has address len) :
    h.readBytes address len = .error (.memoryAccess address len.toNat) :=
  (h.readBytes_eq address len).trans (if_neg hhas)

/-- The length that is kept in front of a string. -/
def storedLength (h : Heap) (address : UInt32) : UInt32 :=
  Bytes.toUInt32 (h.memory.slice address.toNat lengthSize)

/-- The byte at an address belongs to the string at a pointer: to its length or to its text. -/
def InString (h : Heap) (pointer : UInt32) (a : Nat) : Prop :=
  pointer.toNat ≤ a ∧ a < pointer.toNat + lengthSize + (h.storedLength pointer).toNat

/-- Where a text begins, while that is an address. -/
theorem toNat_textStart (hspace : address.toNat + lengthSize < UInt32.size) :
    (address + 4).toNat = address.toNat + lengthSize :=
  toNat_add_of_lt hspace

/-- **Decoding.** The length must be in the memory, the text must begin in the address space and end
in the memory. -/
theorem decodeString_eq (h : Heap) (address : UInt32) :
    h.decodeString address =
      if h.memory.size < address.toNat + lengthSize then .error (.memoryAccess address lengthSize)
      else if UInt32.size ≤ address.toNat + lengthSize then
        .error (.memoryAccess address ((h.storedLength address).toNat + lengthSize))
      else if h.memory.size < address.toNat + lengthSize + (h.storedLength address).toNat then
        .error (.memoryAccess (address + 4) (h.storedLength address).toNat)
      else .ok (Utf8.decodeLossy
        (h.memory.slice (address.toNat + lengthSize) (h.storedLength address).toNat)) := by
  have hfour : (4 : UInt32).toNat = lengthSize := rfl
  rw [decodeString, readBytes_eq, hfour]
  by_cases hprefix : h.memory.size < address.toNat + lengthSize
  · rw [if_pos hprefix, if_neg (Nat.not_le.2 hprefix)]
    rfl
  rw [if_neg hprefix, if_pos (Nat.not_lt.1 hprefix)]
  change (if UInt32.size ≤ address.toNat + lengthSize then _ else
    h.readText (address + 4) (h.storedLength address)) = _
  by_cases hspace : UInt32.size ≤ address.toNat + lengthSize
  · rw [if_pos hspace, if_pos hspace]
    rfl
  rw [if_neg hspace, if_neg hspace, readText, readBytes_eq, toNat_textStart (Nat.not_le.1 hspace)]
  by_cases htext : h.memory.size < address.toNat + lengthSize + (h.storedLength address).toNat
  · rw [if_pos htext, if_neg (Nat.not_le.2 htext)]
    rfl
  · rw [if_neg htext, if_pos (Nat.not_lt.1 htext)]
    rfl

/-- Decoding looks at the bytes of the string and at nothing else. -/
theorem decodeString_congr (hsize : k.memory.size = h.memory.size)
    (hbytes : ∀ a, h.InString address a → k.memory.byte a = h.memory.byte a) :
    k.decodeString address = h.decodeString address := by
  have hlength : k.storedLength address = h.storedLength address := by
    rw [storedLength, storedLength,
      LinearMemory.slice_congr fun a hle hlt => hbytes a ⟨hle, by omega⟩]
  have htext : k.memory.slice (address.toNat + lengthSize) (h.storedLength address).toNat =
      h.memory.slice (address.toNat + lengthSize) (h.storedLength address).toNat :=
    LinearMemory.slice_congr fun a hle hlt => hbytes a ⟨by omega, hlt⟩
  rw [decodeString_eq, decodeString_eq, hsize, hlength, htext]

/-! ## Overwriting -/

/-- What comes of overwriting bytes, all of them where it says. -/
structure Rewrites (touched : Nat → Prop) (h k : Heap) : Prop where
  allocator : k.allocator = h.allocator
  size : k.memory.size = h.memory.size
  byte : ∀ a, ¬touched a → k.memory.byte a = h.memory.byte a

theorem Rewrites.refl (touched : Nat → Prop) (h : Heap) : Rewrites touched h h :=
  ⟨rfl, rfl, fun _ _ => rfl⟩

theorem Rewrites.trans {touched : Nat → Prop} {l : Heap} (hhk : Rewrites touched h k)
    (hkl : Rewrites touched k l) : Rewrites touched h l :=
  ⟨hkl.allocator.trans hhk.allocator, hkl.size.trans hhk.size,
    fun a ha => (hkl.byte a ha).trans (hhk.byte a ha)⟩

theorem Rewrites.mono {touched larger : Nat → Prop} (hhk : Rewrites touched h k)
    (hle : ∀ a, touched a → larger a) : Rewrites larger h k :=
  ⟨hhk.allocator, hhk.size, fun a ha => hhk.byte a (mt (hle a) ha)⟩

theorem writeBytes_eq_ok {bytes : Bytes} (hok : h.writeBytes address bytes = .ok k) :
    Rewrites (fun a => address.toNat ≤ a ∧ a < address.toNat + bytes.length) h k ∧
      address.toNat + bytes.length ≤ k.memory.size ∧
      k.memory.slice address.toNat bytes.length = bytes := by
  unfold writeBytes at hok
  split at hok
  · rename_i written hwrite
    cases hok
    obtain ⟨hfits, hsize, -⟩ := LinearMemory.write?_eq_some hwrite
    exact ⟨⟨rfl, hsize, fun a ha => LinearMemory.byte_of_write? hwrite ha⟩,
      Nat.le_trans hfits (Nat.le_of_eq hsize.symm), LinearMemory.slice_of_write? hwrite⟩
  · cases hok

/-! ## Keeping bytes -/

/-- What comes of changes that lose no page and no byte but those of some addresses. -/
structure Keeps (touched : Nat → Prop) (h k : Heap) : Prop where
  size : h.memory.size ≤ k.memory.size
  byte : ∀ a, ¬touched a → k.memory.byte a = h.memory.byte a

variable {touched larger : Nat → Prop}

theorem Keeps.refl (touched : Nat → Prop) (h : Heap) : Keeps touched h h :=
  ⟨Nat.le_refl _, fun _ _ => rfl⟩

theorem Keeps.trans {l : Heap} (hhk : Keeps touched h k) (hkl : Keeps touched k l) :
    Keeps touched h l :=
  ⟨Nat.le_trans hhk.size hkl.size, fun a ha => (hkl.byte a ha).trans (hhk.byte a ha)⟩

theorem Keeps.mono (hhk : Keeps touched h k) (hle : ∀ a, touched a → larger a) :
    Keeps larger h k :=
  ⟨hhk.size, fun a ha => hhk.byte a (mt (hle a) ha)⟩

theorem Rewrites.keeps (hhk : Rewrites touched h k) : Keeps touched h k :=
  ⟨Nat.le_of_eq hhk.size.symm, hhk.byte⟩

theorem keeps_of_grow? {more : Nat} (hmemory : h.memory.grow? more = some k.memory) :
    Keeps touched h k :=
  ⟨(LinearMemory.extends_of_grow? hmemory).size_le,
    fun a _ => LinearMemory.byte_of_grow? hmemory a⟩

/-- An allocation overwrites nothing. -/
theorem keeps_allocAligned {size align : UInt32}
    (hok : h.allocAligned size align = .ok (address, k)) : Keeps touched h k := by
  obtain ⟨⟨start, finish⟩, -, hgranted⟩ := Except.bind_eq_ok_iff.1 hok
  dsimp only at hgranted
  split at hgranted
  · split at hgranted
    · rename_i grown hgrow
      cases hgranted
      exact keeps_of_grow? hgrow
    · cases hgranted
  · cases hgranted
    exact ⟨Nat.le_refl _, fun _ _ => rfl⟩

end Heap

end SpiritHost
