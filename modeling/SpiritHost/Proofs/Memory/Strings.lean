import SpiritHost.Proofs.Memory.Bytes
import SpiritHost.Proofs.Memory.History
import SpiritHost.Proofs.Text.Utf8

/-!
# Strings in memory

Encoding a string leaves its length and its UTF-8 bytes in a fresh region (`HoldsString`). While
those bytes stay what they are, decoding gives the string, whatever else happens to the heap.
-/

namespace SpiritHost.Heap

variable {h k : Heap} {text : String} {address : UInt32}

/-- A string lies at an address, with its length in front. -/
structure HoldsString (h : Heap) (text : String) (address : UInt32) : Prop where
  aligned : 4 ∣ address.toNat
  space : address.toNat + lengthSize + Utf8.size text < UInt32.size
  inside : address.toNat + lengthSize + Utf8.size text ≤ h.memory.size
  length : h.memory.slice address.toNat lengthSize = Bytes.ofNatLE lengthSize (Utf8.size text)
  bytes : h.memory.slice (address.toNat + lengthSize) (Utf8.size text) = Utf8.encode text

theorem length_stored (text : String) : (stored text).length = lengthSize + Utf8.size text := by
  rw [stored, List.length_append, Bytes.length_ofNatLE, Utf8.size]

theorem toNat_stringSize (hfits : Utf8.size text + lengthSize < UInt32.size) :
    (stringSize text).toNat = Utf8.size text + lengthSize :=
  UInt32.toNat_ofNat_of_lt' hfits

/-- The region of a string. -/
def stringRegion (text : String) (address : UInt32) : Region := ⟨address, stringSize text, 4⟩

/-- **Encoding.** It leaves the string in the region that it allocates and changes no other byte. -/
theorem holds_encodeString (hok : h.encodeString text = .ok (address, k)) :
    k.HoldsString text address ∧ Keeps (stringRegion text address).Contains h k := by
  obtain ⟨hfits, l, halloc, hwrite⟩ := encodeString_eq_ok hok
  obtain ⟨-, haligned, hcursor⟩ := (moves_of_encodeString hok).allocator.le_issued
  obtain ⟨hrewrites, hinside, hslice⟩ := writeBytes_eq_ok hwrite
  have hspace : address.toNat + (Utf8.size text + lengthSize) < UInt32.size := by
    have hlt := k.allocator.cursor.toNat_lt
    rw [hcursor, Region.finish, toNat_stringSize hfits] at hlt
    exact hlt
  rw [length_stored] at hinside hslice hrewrites
  rw [LinearMemory.slice_add, stored] at hslice
  obtain ⟨hlength, hbytes⟩ := List.append_inj hslice (by simp)
  refine ⟨⟨?_, by omega, by omega, hlength, hbytes⟩, ?_⟩
  · have hclog : Nat.clog 2 (4 : UInt32).toNat = 2 := Nat.clog_pow 2 2 (by decide)
    rw [hclog] at haligned
    exact haligned
  · refine (keeps_allocAligned halloc).trans (hrewrites.keeps.mono fun a ha => ⟨ha.1, ?_⟩)
    have hlt := ha.2
    rw [Region.finish, stringRegion, toNat_stringSize hfits]
    dsimp only
    omega

/-- **Decoding.** -/
theorem HoldsString.decodeString_eq (hholds : h.HoldsString text address) :
    h.decodeString address = .ok text := by
  have hspace := hholds.space
  have hinside := hholds.inside
  have hsize : Utf8.size text < UInt32.size := by omega
  have hlength : (h.storedLength address).toNat = Utf8.size text := by
    rw [storedLength, hholds.length, Bytes.toUInt32, Bytes.toNatLE_ofNatLE]
    -- Four digits are enough for a length below `2 ^ 32`.
    rw [Nat.mod_eq_of_lt (show Utf8.size text < Bytes.capacity lengthSize from hsize)]
    exact UInt32.toNat_ofNat_of_lt' hsize
  rw [Heap.decodeString_eq, hlength, if_neg (by omega), if_neg (by omega), if_neg (by omega),
    hholds.bytes, Utf8.decodeLossy_encode]

/-- A string stays while its bytes do. -/
theorem HoldsString.keeps {touched : Nat → Prop} (hholds : h.HoldsString text address)
    (hkeeps : Keeps touched h k)
    (hapart : ∀ a, (stringRegion text address).Contains a → ¬touched a) :
    k.HoldsString text address := by
  have hspace := hholds.space
  have hfinish : (stringRegion text address).finish =
      address.toNat + (Utf8.size text + lengthSize) := by
    rw [Region.finish, stringRegion, toNat_stringSize (by omega)]
  refine ⟨hholds.aligned, hspace, Nat.le_trans hholds.inside hkeeps.size, ?_, ?_⟩
  · rw [← hholds.length]
    refine LinearMemory.slice_congr fun a hle hlt => hkeeps.byte a (hapart a ⟨hle, ?_⟩)
    omega
  · rw [← hholds.bytes]
    refine LinearMemory.slice_congr fun a hle hlt => hkeeps.byte a (hapart a ⟨?_, ?_⟩)
    · exact Nat.le_trans (Nat.le_add_right _ _) hle
    · omega

end SpiritHost.Heap
