import SpiritHost.Proofs.Memory.Readings
import SpiritHost.Proofs.Memory.Storing

/-!
# Reading untrusted memory

Pointers and lengths found in a memory were put there by a Spirit and may be any words. A string is
decoded exactly if its length and its text lie in the memory, and a record is read exactly if each
of its fields can be. Otherwise the error names the first range that does not lie in the memory, in
numbers that did not wrap. No byte outside is looked at (`Heap.Peeks`), whatever comes of a reading.
-/

namespace SpiritHost.Heap

variable {h k : Heap} {g : GeneLayout} {address pointer : UInt32} {f : FieldLayout} {e : Error}

/-! ## Strings -/

/-- A string can be decoded: its length lies in the memory, its text begins in the address space and
ends in the memory. -/
structure HasString (h : Heap) (address : UInt32) : Prop where
  length : address.toNat + lengthSize ≤ h.memory.size
  space : address.toNat + lengthSize < UInt32.size
  text : address.toNat + lengthSize + (h.storedLength address).toNat ≤ h.memory.size

/-- The text behind the length at an address. -/
def storedText (h : Heap) (address : UInt32) : String :=
  Utf8.decodeLossy
    (h.memory.slice (address.toNat + lengthSize) (h.storedLength address).toNat)

/-- Why a string cannot be decoded: the first of the conditions that fails. -/
inductive StringFault (h : Heap) (address : UInt32) : Error → Prop
  | length (outside : h.memory.size < address.toNat + lengthSize) :
      StringFault h address (.memoryAccess address lengthSize)
  | space (length : address.toNat + lengthSize ≤ h.memory.size)
      (beyond : UInt32.size ≤ address.toNat + lengthSize) :
      StringFault h address
        (.memoryAccess address ((h.storedLength address).toNat + lengthSize))
  | text {start : UInt32} (length : address.toNat + lengthSize ≤ h.memory.size)
      (starts : start.toNat = address.toNat + lengthSize)
      (outside : h.memory.size <
        address.toNat + lengthSize + (h.storedLength address).toNat) :
      StringFault h address (.memoryAccess start (h.storedLength address).toNat)

theorem decodeString_of_hasString (hstring : h.HasString address) :
    h.decodeString address = .ok (h.storedText address) := by
  rw [decodeString_eq, if_neg (Nat.not_lt.2 hstring.length), if_neg (Nat.not_le.2 hstring.space),
    if_neg (Nat.not_lt.2 hstring.text)]
  rfl

theorem decodeString_of_fault (hfault : h.StringFault address e) :
    h.decodeString address = .error e := by
  rw [decodeString_eq]
  cases hfault with
  | length houtside => exact if_pos houtside
  | space hlength hbeyond => rw [if_neg (Nat.not_lt.2 hlength), if_pos hbeyond]
  | @text start hlength hstarts houtside =>
    have hspace : address.toNat + lengthSize < UInt32.size := hstarts ▸ start.toNat_lt
    obtain rfl : start = address + 4 :=
      UInt32.toNat_inj.1 (hstarts.trans (toNat_textStart hspace).symm)
    rw [if_neg (Nat.not_lt.2 hlength), if_neg (Nat.not_le.2 hspace), if_pos houtside]

/-- Either a string can be decoded or one of the conditions fails. -/
theorem hasString_or_fault (h : Heap) (address : UInt32) :
    h.HasString address ∨ ∃ e, h.StringFault address e := by
  by_cases hlength : address.toNat + lengthSize ≤ h.memory.size
  · by_cases hspace : address.toNat + lengthSize < UInt32.size
    · by_cases htext : address.toNat + lengthSize + (h.storedLength address).toNat ≤ h.memory.size
      · exact .inl ⟨hlength, hspace, htext⟩
      · exact .inr ⟨_, .text hlength (toNat_textStart hspace) (Nat.lt_of_not_le htext)⟩
    · exact .inr ⟨_, .space hlength (Nat.le_of_not_lt hspace)⟩
  · exact .inr ⟨_, .length (Nat.lt_of_not_le hlength)⟩

theorem decodeString_eq_ok_iff {text : String} :
    h.decodeString address = .ok text ↔ h.HasString address ∧ text = h.storedText address := by
  rcases h.hasString_or_fault address with hstring | ⟨e, hfault⟩
  · rw [decodeString_of_hasString hstring]
    simp [hstring, eq_comm]
  · rw [decodeString_of_fault hfault]
    refine ⟨nofun, fun ⟨hstring, _⟩ => ?_⟩
    rw [← decodeString_of_fault hfault, decodeString_of_hasString hstring, ‹text = _›]

theorem decodeString_eq_error_iff :
    h.decodeString address = .error e ↔ h.StringFault address e := by
  refine ⟨fun herror => ?_, decodeString_of_fault⟩
  rcases h.hasString_or_fault address with hstring | ⟨e', hfault⟩
  · rw [decodeString_of_hasString hstring] at herror
    cases herror
  · rw [decodeString_of_fault hfault] at herror
    cases herror
    exact hfault

/-! ## Fields -/

/-- A field of the gene at an address can be read. A pointer of 0 need not lead to a string. -/
structure Readable (h : Heap) (address : UInt32) (f : FieldLayout) : Prop where
  space : address.toNat + f.offset.toNat < UInt32.size
  inside : address.toNat + f.finish ≤ h.memory.size
  string : f.type = .string → h.pointer address f ≠ 0 → h.HasString (h.pointer address f)

/-- Why it cannot: the first of the conditions that fails. -/
inductive Unreadable (h : Heap) (g : GeneLayout) (address : UInt32) (f : FieldLayout) : Error → Prop
  | space (beyond : UInt32.size ≤ address.toNat + f.offset.toNat) :
      Unreadable h g address f (.field g.name f.name (.overflow address f.offset))
  | inside {place : UInt32} (start : place.toNat = address.toNat + f.offset.toNat)
      (outside : h.memory.size < address.toNat + f.finish) :
      Unreadable h g address f (.memoryAccess place f.type.size.toNat)
  | string {e : Error} (space : address.toNat + f.offset.toNat < UInt32.size)
      (inside : address.toNat + f.finish ≤ h.memory.size) (type : f.type = .string)
      (pointer : h.pointer address f ≠ 0) (fault : h.StringFault (h.pointer address f) e) :
      Unreadable h g address f e

/-- What a field reads as. -/
def fieldValue (h : Heap) (address : UInt32) (f : FieldLayout) : FieldValue :=
  let bytes := h.memory.slice (address.toNat + f.offset.toNat) f.type.size.toNat
  match f.type with
  | .i32 => .i32 (Bytes.toUInt32 bytes)
  | .i64 => .i64 (Bytes.toUInt64 bytes)
  | .f32 => .f32 (Bytes.toUInt32 bytes)
  | .f64 => .f64 (Bytes.toUInt64 bytes)
  | .bool => .bool (Bytes.toUInt32 bytes ≠ 0)
  | .string =>
    if h.pointer address f = 0 then .text "" else .text (h.storedText (h.pointer address f))

theorem readField_of_inside (hspace : address.toNat + f.offset.toNat < UInt32.size)
    (hinside : address.toNat + f.finish ≤ h.memory.size) :
    h.readField f.type (address + f.offset) =
      if f.type = .string ∧ h.pointer address f ≠ 0 then
        .text <$> h.decodeString (h.pointer address f)
      else .ok (h.fieldValue address f) := by
  have hfits : (address + f.offset).toNat + f.type.size.toNat ≤ h.memory.size := by
    rw [toNat_add_of_lt hspace, Nat.add_assoc]
    exact hinside
  rw [readField, readBytes_eq, if_pos hfits, toNat_add_of_lt hspace]
  change (match f.type with
    | .i32 => _ | .i64 => _ | .f32 => _ | .f64 => _ | .bool => _ | .string => _) = _
  unfold fieldValue pointer
  obtain ⟨name, type, offset⟩ := f
  cases type
  case string =>
    dsimp only
    split <;> simp [*]
  all_goals simp

/-- A field that leads to no string reads as its bytes do. -/
theorem fieldValue_congr
    (hslice : k.memory.slice (address.toNat + f.offset.toNat) f.type.size.toNat =
      h.memory.slice (address.toNat + f.offset.toNat) f.type.size.toNat)
    (hpointer : k.pointer address f = h.pointer address f)
    (hplain : ¬(f.type = .string ∧ h.pointer address f ≠ 0)) :
    k.fieldValue address f = h.fieldValue address f := by
  unfold fieldValue
  rw [hslice, hpointer]
  cases htype : f.type with
  | string =>
    have hnull : h.pointer address f = 0 := by
      by_contra hpointer
      exact hplain ⟨htype, hpointer⟩
    dsimp only
    rw [if_pos hnull, if_pos hnull]
  | _ => rfl

theorem readField_of_outside (hspace : address.toNat + f.offset.toNat < UInt32.size)
    (houtside : h.memory.size < address.toNat + f.finish) :
    h.readField f.type (address + f.offset) =
      .error (.memoryAccess (address + f.offset) f.type.size.toNat) := by
  have hfits : ¬(address + f.offset).toNat + f.type.size.toNat ≤ h.memory.size := by
    rw [toNat_add_of_lt hspace, Nat.add_assoc]
    exact Nat.not_le.2 houtside
  rw [readField, readBytes_eq, if_neg hfits]
  rfl

theorem readEntry_of_lt (hspace : address.toNat + f.offset.toNat < UInt32.size) :
    h.readEntry g address f = (f.name, ·) <$> h.readField f.type (address + f.offset) := by
  rw [readEntry, fieldAddress_of_lt hspace]
  change (h.readField f.type (address + f.offset) >>= fun value => .ok (f.name, value)) = _
  cases h.readField f.type (address + f.offset) <;> rfl

theorem readEntry_of_le (hbeyond : UInt32.size ≤ address.toNat + f.offset.toNat) :
    h.readEntry g address f =
      .error (.field g.name f.name (.overflow address f.offset)) := by
  rw [readEntry, fieldAddress_of_le hbeyond]
  rfl

theorem readEntry_of_readable (hf : h.Readable address f) :
    h.readEntry g address f = .ok (f.name, h.fieldValue address f) := by
  rw [readEntry_of_lt hf.space, readField_of_inside hf.space hf.inside]
  split
  · rename_i hstring
    rw [decodeString_of_hasString (hf.string hstring.1 hstring.2), fieldValue]
    simp only [hstring.1, if_neg hstring.2]
    rfl
  · rfl

theorem readEntry_of_unreadable (hf : h.Unreadable g address f e) :
    h.readEntry g address f = .error e := by
  cases hf with
  | space hbeyond => exact readEntry_of_le hbeyond
  | @inside place hstart houtside =>
    have hspace : address.toNat + f.offset.toNat < UInt32.size := hstart ▸ place.toNat_lt
    obtain rfl : place = address + f.offset :=
      UInt32.toNat_inj.1 (hstart.trans (toNat_add_of_lt hspace).symm)
    rw [readEntry_of_lt hspace, readField_of_outside hspace houtside]
    rfl
  | string hspace hinside htype hpointer hfault =>
    rw [readEntry_of_lt hspace, readField_of_inside hspace hinside, if_pos ⟨htype, hpointer⟩,
      decodeString_of_fault hfault]
    rfl

/-- Either a field can be read or one of the conditions fails. -/
theorem readable_or_not (h : Heap) (g : GeneLayout) (address : UInt32) (f : FieldLayout) :
    h.Readable address f ∨ ∃ e, h.Unreadable g address f e := by
  by_cases hspace : address.toNat + f.offset.toNat < UInt32.size
  · by_cases hinside : address.toNat + f.finish ≤ h.memory.size
    · by_cases hstring : f.type = .string ∧ h.pointer address f ≠ 0
      · rcases h.hasString_or_fault (h.pointer address f) with hhas | ⟨e, hfault⟩
        · exact .inl ⟨hspace, hinside, fun _ _ => hhas⟩
        · exact .inr ⟨e, .string hspace hinside hstring.1 hstring.2 hfault⟩
      · exact .inl ⟨hspace, hinside, fun htype hpointer => absurd ⟨htype, hpointer⟩ hstring⟩
    · exact .inr ⟨_, .inside (toNat_add_of_lt hspace) (Nat.lt_of_not_le hinside)⟩
  · exact .inr ⟨_, .space (Nat.le_of_not_lt hspace)⟩

theorem exists_readEntry_iff :
    (∃ entry, h.readEntry g address f = .ok entry) ↔ h.Readable address f := by
  refine ⟨?_, fun hf => ⟨_, readEntry_of_readable hf⟩⟩
  rintro ⟨entry, hentry⟩
  rcases h.readable_or_not g address f with hf | ⟨e, hf⟩
  · exact hf
  · rw [readEntry_of_unreadable hf] at hentry
    cases hentry

theorem readEntry_eq_error_iff :
    h.readEntry g address f = .error e ↔ h.Unreadable g address f e := by
  refine ⟨fun herror => ?_, readEntry_of_unreadable⟩
  rcases h.readable_or_not g address f with hf | ⟨e', hf⟩
  · rw [readEntry_of_readable hf] at herror
    cases herror
  · rw [readEntry_of_unreadable hf] at herror
    cases herror
    exact hf

/-! ## Records -/

/-- The record of the gene at an address, field by field. -/
def foundRecord (h : Heap) (g : GeneLayout) (address : UInt32) : Record :=
  .ofList (g.fields.map fun f => (f.name, h.fieldValue address f))

theorem readRecord_of_readable (hall : ∀ f ∈ g.fields, h.Readable address f) :
    h.readRecord g address = .ok (h.foundRecord g address) := by
  have hentries : g.fields.mapM (h.readEntry g address) =
      .ok (g.fields.map fun f => (f.name, h.fieldValue address f)) := by
    rw [Except.mapM_eq_ok_iff, List.forall₂_map_right_iff, List.forall₂_same]
    exact fun f hf => readEntry_of_readable (hall f hf)
  rw [readRecord_eq, hentries]
  rfl

theorem readRecord_eq_ok_iff {r : Record} : h.readRecord g address = .ok r ↔
    (∀ f ∈ g.fields, h.Readable address f) ∧ r = h.foundRecord g address := by
  constructor
  · intro hread
    have hall : ∀ f ∈ g.fields, h.Readable address f := by
      rw [readRecord_eq] at hread
      obtain ⟨entries, hentries, -⟩ := Except.bind_eq_ok_iff.1 hread
      intro f hf
      exact exists_readEntry_iff.1 (Except.exists_mapM_eq_ok_iff.1 ⟨entries, hentries⟩ f hf)
    rw [readRecord_of_readable hall] at hread
    cases hread
    exact ⟨hall, rfl⟩
  · rintro ⟨hall, rfl⟩
    exact readRecord_of_readable hall

theorem readRecord_eq_error_iff : h.readRecord g address = .error e ↔
    ∃ before f after, g.fields = before ++ f :: after ∧
      (∀ x ∈ before, h.Readable address x) ∧ h.Unreadable g address f e := by
  rw [readRecord_eq, Except.bind_eq_error_iff]
  simp only [Except.mapM_eq_error_iff, exists_readEntry_iff, readEntry_eq_error_iff, reduceCtorEq,
    and_false, exists_false, or_false]

/-! ## Bytes looked at -/

/-- The bytes that decoding a string looks at: its length, if that lies in the memory, and its text,
if it can be decoded. -/
inductive PeeksString (h : Heap) (pointer : UInt32) (a : Nat) : Prop
  | length (inside : pointer.toNat + lengthSize ≤ h.memory.size) (le : pointer.toNat ≤ a)
      (lt : a < pointer.toNat + lengthSize)
  | text (string : h.HasString pointer) (le : pointer.toNat + lengthSize ≤ a)
      (lt : a < pointer.toNat + lengthSize + (h.storedLength pointer).toNat)

/-- The bytes that reading a field looks at: its own, if they lie in the memory, and those of the
string that it leads to. -/
inductive PeeksField (h : Heap) (address : UInt32) (f : FieldLayout) (a : Nat) : Prop
  | own (space : address.toNat + f.offset.toNat < UInt32.size)
      (inside : address.toNat + f.finish ≤ h.memory.size) (covers : f.Covers address a)
  | string (space : address.toNat + f.offset.toNat < UInt32.size)
      (inside : address.toNat + f.finish ≤ h.memory.size) (type : f.type = .string)
      (pointer : h.pointer address f ≠ 0) (peeks : h.PeeksString (h.pointer address f) a)

/-- The byte at an address is one that a reading looks at, whatever comes of it. -/
def Peeks (h : Heap) : Reading → Nat → Prop
  | .bytes address len, a | .text address len, a =>
    h.Has address len ∧ address.toNat ≤ a ∧ a < address.toNat + len.toNat
  | .string address, a => h.PeeksString address a
  | .record gene address, a => ∃ f ∈ gene.fields, h.PeeksField address f a

theorem PeeksString.lt_size {a : Nat} (ha : h.PeeksString pointer a) : a < h.memory.size := by
  cases ha with
  | length hinside _ hlt => exact Nat.lt_of_lt_of_le hlt hinside
  | text hstring _ hlt => exact Nat.lt_of_lt_of_le hlt hstring.text

/-- **Inside.** No byte outside the memory is looked at. -/
theorem Peeks.lt_size {reading : Reading} {a : Nat} (ha : h.Peeks reading a) :
    a < h.memory.size := by
  cases reading with
  | bytes address len => exact Nat.lt_of_lt_of_le ha.2.2 ha.1
  | text address len => exact Nat.lt_of_lt_of_le ha.2.2 ha.1
  | string address => exact PeeksString.lt_size ha
  | record g address =>
    obtain ⟨f, -, hf⟩ := ha
    cases hf with
    | own _ hinside hcovers => exact Nat.lt_of_lt_of_le hcovers.2 hinside
    | string _ _ _ _ hpeeks => exact hpeeks.lt_size

section

variable (hsize : k.memory.size = h.memory.size)
include hsize

theorem decodeString_of_peeks
    (hbytes : ∀ a, h.PeeksString address a → k.memory.byte a = h.memory.byte a) :
    k.decodeString address = h.decodeString address := by
  by_cases hlength : address.toNat + lengthSize ≤ h.memory.size
  · have hstored : k.storedLength address = h.storedLength address := by
      rw [storedLength, storedLength, LinearMemory.slice_congr fun a hle hlt =>
        hbytes a (.length hlength hle hlt)]
    rw [decodeString_eq, decodeString_eq, hsize, hstored]
    by_cases hstring : h.HasString address
    · rw [LinearMemory.slice_congr fun a hle hlt => hbytes a (.text hstring hle hlt)]
    · -- The text is not looked at: one of the checks fails.
      rw [if_neg (Nat.not_lt.2 hlength), if_neg (Nat.not_lt.2 hlength)]
      by_cases hspace : UInt32.size ≤ address.toNat + lengthSize
      · rw [if_pos hspace, if_pos hspace]
      · have htext : h.memory.size <
            address.toNat + lengthSize + (h.storedLength address).toNat := by
          by_contra htext
          exact hstring ⟨hlength, Nat.lt_of_not_le hspace, Nat.le_of_not_lt htext⟩
        rw [if_pos htext, if_pos htext]
  · rw [decodeString_eq, decodeString_eq, hsize, if_pos (Nat.lt_of_not_le hlength),
      if_pos (Nat.lt_of_not_le hlength)]

theorem readBytes_of_peeks {len : UInt32} (hbytes : ∀ a, h.Peeks (.bytes address len) a →
    k.memory.byte a = h.memory.byte a) : k.readBytes address len = h.readBytes address len := by
  rw [readBytes_eq, readBytes_eq, hsize]
  by_cases hhas : address.toNat + len.toNat ≤ h.memory.size
  · rw [LinearMemory.slice_congr fun a hle hlt => hbytes a ⟨hhas, hle, hlt⟩]
  · rw [if_neg hhas, if_neg hhas]

theorem readEntry_of_peeks
    (hbytes : ∀ a, h.PeeksField address f a → k.memory.byte a = h.memory.byte a) :
    k.readEntry g address f = h.readEntry g address f := by
  by_cases hspace : address.toNat + f.offset.toNat < UInt32.size
  · rw [readEntry_of_lt hspace, readEntry_of_lt hspace]
    by_cases hinside : address.toNat + f.finish ≤ h.memory.size
    · have hslice : k.memory.slice (address.toNat + f.offset.toNat) f.type.size.toNat =
          h.memory.slice (address.toNat + f.offset.toNat) f.type.size.toNat :=
        LinearMemory.slice_congr fun a hle hlt =>
          hbytes a (.own hspace hinside ⟨hle, by unfold FieldLayout.finish; omega⟩)
      have hpointer : k.pointer address f = h.pointer address f := by
        rw [pointer, pointer, hslice]
      have hinside' : address.toNat + f.finish ≤ k.memory.size := by rwa [hsize]
      rw [readField_of_inside hspace hinside, readField_of_inside hspace hinside', hpointer]
      split
      · rename_i hstring
        rw [decodeString_of_peeks hsize fun a ha =>
          hbytes a (.string hspace hinside hstring.1 hstring.2 ha)]
      · rename_i hstring
        rw [fieldValue_congr hslice hpointer hstring]
    · have houtside := Nat.lt_of_not_le hinside
      have houtside' : k.memory.size < address.toNat + f.finish := by rwa [hsize]
      rw [readField_of_outside hspace houtside, readField_of_outside hspace houtside']
  · have hbeyond := Nat.le_of_not_lt hspace
    rw [readEntry_of_le hbeyond, readEntry_of_le hbeyond]

theorem readRecord_of_peeks (hbytes : ∀ a, h.Peeks (.record g address) a →
    k.memory.byte a = h.memory.byte a) : k.readRecord g address = h.readRecord g address := by
  have hentries : g.fields.mapM (k.readEntry g address) =
      g.fields.mapM (h.readEntry g address) :=
    Except.mapM_congr fun f hf => readEntry_of_peeks hsize fun a ha => hbytes a ⟨f, hf, ha⟩
  rw [readRecord_eq, readRecord_eq, hentries]

/-- **Nothing else.** What comes of a reading depends on the size of the memory and on the bytes
looked at. -/
theorem read_of_peeks {reading : Reading}
    (hbytes : ∀ a, h.Peeks reading a → k.memory.byte a = h.memory.byte a) :
    k.read reading = h.read reading := by
  cases reading with
  | bytes address len => rw [read, read, readBytes_of_peeks hsize hbytes]
  | text address len =>
    rw [read, read, readText, readText, readBytes_of_peeks hsize hbytes]
  | string address => rw [read, read, decodeString_of_peeks hsize hbytes]
  | record g address => rw [read, read, readRecord_of_peeks hsize hbytes]

end

/-! ## Both -/

/-- What reading a memory comes to, whatever its bytes are. -/
structure ReadsExactly (h : Heap) : Prop where
  /-- A string is decoded exactly if it lies in the memory as its length says. -/
  string_ok_iff : ∀ address text, h.decodeString address = .ok text ↔
    h.HasString address ∧ text = h.storedText address
  /-- Otherwise the error is about the first of the ranges that does not. -/
  string_error_iff : ∀ address e, h.decodeString address = .error e ↔ h.StringFault address e
  /-- A record is read exactly if each of its fields can be. -/
  record_ok_iff : ∀ g address r, h.readRecord g address = .ok r ↔
    (∀ f ∈ g.fields, h.Readable address f) ∧ r = h.foundRecord g address
  /-- Otherwise the error is about the first of them that cannot. -/
  record_error_iff : ∀ g address e, h.readRecord g address = .error e ↔
    ∃ before f after, g.fields = before ++ f :: after ∧
      (∀ x ∈ before, h.Readable address x) ∧ h.Unreadable g address f e
  /-- The text begins where the sum of words says, and the sums of addresses and lengths stay below
  `2 ^ 64`, whatever the length is. -/
  sums : ∀ address, (h.HasString address → (address + 4).toNat = address.toNat + lengthSize) ∧
    address.toNat + lengthSize + (h.storedLength address).toNat < 2 ^ 64
  /-- No byte outside the memory is looked at, -/
  inside : ∀ reading a, h.Peeks reading a → a < h.memory.size
  /-- and none but those that `Peeks` names. -/
  looked : ∀ reading (k : Heap), k.memory.size = h.memory.size →
    (∀ a, h.Peeks reading a → k.memory.byte a = h.memory.byte a) → k.read reading = h.read reading

/-- **Untrusted memory.** No pointer and no length found in a memory makes a reading leave it. -/
theorem reads_exactly (h : Heap) : h.ReadsExactly where
  string_ok_iff _ _ := decodeString_eq_ok_iff
  string_error_iff _ _ := decodeString_eq_error_iff
  record_ok_iff _ _ _ := readRecord_eq_ok_iff
  record_error_iff _ _ _ := readRecord_eq_error_iff
  sums address := by
    have haddress := address.toNat_lt
    have hlength := (h.storedLength address).toNat_lt
    have hfour : lengthSize = 4 := rfl
    exact ⟨fun hstring => toNat_textStart hstring.space, by omega⟩
  inside _ _ := Peeks.lt_size
  looked _ _ hsize := read_of_peeks hsize

/-- A length that reaches past the address space. -/
example :
    let h : Heap := ⟨(LinearMemory.create? 1 1).getD .absent, .new 1024⟩
    (match h.writeBytes 65528 [0xFF, 0xFF, 0xFF, 0xFF] >>= (·.decodeString 65528) with
    | .error (.memoryAccess start length) => some (start, length)
    | _ => none) = some (65532, 0xFFFFFFFF) := by
  decide +kernel

end SpiritHost.Heap
