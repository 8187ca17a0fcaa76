import SpiritHost.Proofs.Memory.Records

/-!
# Readings

Whatever is read of a heap depends on some of its bytes alone: a range, a string with the length in
front of it, or the fields of a record with the strings that they lead to. While those bytes stay what
they are, what could be read can still be read and is the same, whatever else is written and however
many pages are added.
-/

namespace SpiritHost

/-- What can be read of a heap. -/
inductive Reading where
  | bytes (address len : UInt32)
  | text (address len : UInt32)
  | string (address : UInt32)
  | record (gene : GeneLayout) (address : UInt32)

/-- What is found there. -/
inductive Finding where
  | bytes (bytes : Bytes)
  | text (text : String)
  | record (record : Record)
deriving DecidableEq

namespace Heap

/-- Reads a heap. -/
def read (h : Heap) : Reading → Except Error Finding
  | .bytes address len => (h.readBytes address len).map .bytes
  | .text address len => (h.readText address len).map .text
  | .string address => (h.decodeString address).map .text
  | .record gene address => (h.readRecord gene address).map .record

/-- Where the string field of a gene at an address leads. -/
def pointer (h : Heap) (address : UInt32) (f : FieldLayout) : UInt32 :=
  Bytes.toUInt32 (h.memory.slice (address.toNat + f.offset.toNat) f.type.size.toNat)

/-- The byte at an address is one that a reading looks at. -/
def Sees (h : Heap) : Reading → Nat → Prop
  | .bytes address len, a | .text address len, a =>
    address.toNat ≤ a ∧ a < address.toNat + len.toNat
  | .string address, a => h.InString address a
  | .record gene address, a => ∃ f ∈ gene.fields,
    f.Covers address a ∨ f.type = .string ∧ h.InString (h.pointer address f) a

variable {h k : Heap} {address len : UInt32} {g : GeneLayout} {f : FieldLayout}
  {touched : Nat → Prop}

theorem readBytes_of_keeps {bytes : Bytes} (hkeeps : Keeps touched h k)
    (hapart : ∀ a, address.toNat ≤ a → a < address.toNat + len.toNat → ¬touched a)
    (hread : h.readBytes address len = .ok bytes) : k.readBytes address len = .ok bytes := by
  rw [readBytes_eq] at hread ⊢
  split at hread
  · rename_i hfits
    have hslice : k.memory.slice address.toNat len.toNat =
        h.memory.slice address.toNat len.toNat :=
      LinearMemory.slice_congr fun a hle hlt => hkeeps.byte a (hapart a hle hlt)
    rw [if_pos (Nat.le_trans hfits hkeeps.size), hslice]
    exact hread
  · cases hread

theorem readText_of_keeps {text : String} (hkeeps : Keeps touched h k)
    (hapart : ∀ a, address.toNat ≤ a → a < address.toNat + len.toNat → ¬touched a)
    (hread : h.readText address len = .ok text) : k.readText address len = .ok text := by
  obtain ⟨bytes, hbytes, hread⟩ := Except.bind_eq_ok_iff.1 hread
  exact Except.bind_eq_ok_iff.2 ⟨bytes, readBytes_of_keeps hkeeps hapart hbytes, hread⟩

theorem decodeString_of_keeps {text : String} (hkeeps : Keeps touched h k)
    (hapart : ∀ a, h.InString address a → ¬touched a)
    (hread : h.decodeString address = .ok text) : k.decodeString address = .ok text := by
  have hsize := hkeeps.size
  have hlength : k.storedLength address = h.storedLength address := by
    rw [storedLength, storedLength, LinearMemory.slice_congr fun a hle hlt =>
      hkeeps.byte a (hapart a ⟨hle, by omega⟩)]
  have htext : k.memory.slice (address.toNat + lengthSize) (h.storedLength address).toNat =
      h.memory.slice (address.toNat + lengthSize) (h.storedLength address).toNat :=
    LinearMemory.slice_congr fun a hle hlt => hkeeps.byte a (hapart a ⟨by omega, hlt⟩)
  rw [decodeString_eq] at hread ⊢
  split at hread
  · cases hread
  split at hread
  · cases hread
  split at hread
  · cases hread
  rename_i hspace hinside
  rw [hlength, if_neg (by omega), if_neg hspace, if_neg (by omega), htext]
  exact hread

theorem readField_of_keeps {t : FieldType} {value : FieldValue} (hkeeps : Keeps touched h k)
    (hapart : ∀ a, address.toNat ≤ a → a < address.toNat + t.size.toNat → ¬touched a)
    (hstring : t = .string → ∀ a,
      h.InString (Bytes.toUInt32 (h.memory.slice address.toNat t.size.toNat)) a → ¬touched a)
    (hread : h.readField t address = .ok value) : k.readField t address = .ok value := by
  obtain ⟨bytes, hbytes, hread⟩ := Except.bind_eq_ok_iff.1 hread
  refine Except.bind_eq_ok_iff.2 ⟨bytes, readBytes_of_keeps hkeeps hapart hbytes, ?_⟩
  cases t with
  | string =>
    have hslice : h.memory.slice address.toNat FieldType.string.size.toNat = bytes := by
      rw [readBytes_eq] at hbytes
      split at hbytes
      · exact Except.ok.inj hbytes
      · cases hbytes
    rw [hslice] at hstring
    dsimp only at hread ⊢
    split at hread
    · rename_i hnull
      rw [if_pos hnull]
      exact hread
    · rename_i hnull
      obtain ⟨text, htext, hread⟩ := Except.map_eq_ok_iff.1 hread
      rw [if_neg hnull, decodeString_of_keeps hkeeps (hstring rfl) htext]
      exact congrArg Except.ok hread
  | _ => exact hread

theorem readEntry_of_keeps {entry : String × FieldValue} (hkeeps : Keeps touched h k)
    (hapart : ∀ a, f.Covers address a → ¬touched a)
    (hstring : f.type = .string → ∀ a, h.InString (h.pointer address f) a → ¬touched a)
    (hread : h.readEntry g address f = .ok entry) : k.readEntry g address f = .ok entry := by
  obtain ⟨place, hplace, hread⟩ := Except.bind_eq_ok_iff.1 hread
  obtain ⟨value, hvalue, hread⟩ := Except.bind_eq_ok_iff.1 hread
  have hstart := fieldAddress_eq_ok hplace
  refine Except.bind_eq_ok_iff.2 ⟨place, hplace, Except.bind_eq_ok_iff.2 ⟨value, ?_, hread⟩⟩
  refine readField_of_keeps hkeeps (fun a hle hlt => hapart a ⟨?_, ?_⟩) ?_ hvalue
  · rwa [hstart] at hle
  · rw [hstart] at hlt
    unfold FieldLayout.finish
    omega
  · rw [hstart]
    exact hstring

theorem readRecord_of_keeps {r : Record} (hkeeps : Keeps touched h k)
    (hapart : ∀ a, h.Sees (.record g address) a → ¬touched a)
    (hread : h.readRecord g address = .ok r) : k.readRecord g address = .ok r := by
  rw [readRecord_eq] at hread ⊢
  obtain ⟨entries, hentries, hread⟩ := Except.bind_eq_ok_iff.1 hread
  refine Except.bind_eq_ok_iff.2 ⟨entries, ?_, hread⟩
  refine Except.mapM_eq_ok_of_forall hentries fun f hf entry hentry => ?_
  exact readEntry_of_keeps hkeeps (fun a ha => hapart a ⟨f, hf, .inl ha⟩)
    (fun htype a ha => hapart a ⟨f, hf, .inr ⟨htype, ha⟩⟩) hentry

/-- **Readings.** What can be read stays while the bytes that the reading looks at do. -/
theorem read_of_keeps {reading : Reading} {found : Finding} (hkeeps : Keeps touched h k)
    (hapart : ∀ a, h.Sees reading a → ¬touched a) (hread : h.read reading = .ok found) :
    k.read reading = .ok found := by
  cases reading with
  | bytes address len =>
    obtain ⟨bytes, hbytes, hfound⟩ := Except.map_eq_ok_iff.1 hread
    have hlater := readBytes_of_keeps hkeeps (fun a hle hlt => hapart a ⟨hle, hlt⟩) hbytes
    exact Except.map_eq_ok_iff.2 ⟨bytes, hlater, hfound⟩
  | text address len =>
    obtain ⟨text, htext, hfound⟩ := Except.map_eq_ok_iff.1 hread
    have hlater := readText_of_keeps hkeeps (fun a hle hlt => hapart a ⟨hle, hlt⟩) htext
    exact Except.map_eq_ok_iff.2 ⟨text, hlater, hfound⟩
  | string address =>
    obtain ⟨text, htext, hfound⟩ := Except.map_eq_ok_iff.1 hread
    exact Except.map_eq_ok_iff.2 ⟨text, decodeString_of_keeps hkeeps hapart htext, hfound⟩
  | record g address =>
    obtain ⟨r, hr, hfound⟩ := Except.map_eq_ok_iff.1 hread
    exact Except.map_eq_ok_iff.2 ⟨r, readRecord_of_keeps hkeeps hapart hr, hfound⟩

end Heap

end SpiritHost
